import Proconsul.SessionRows
import Proconsul.Starting

/-!
# What reaches the user once a container runs

The five session handlers end alike: start the container, write the session a
last time, wait for the container's ready file, redirect. Everything before
that start only prepares: no container starts, and no port is given back. So a
request that starts a container is, from the start on, `launch` with a session
whose port is reserved, and one analysis of `launch` serves all five.

The wait itself is not modelled; where /var/spool/docker exists, the ready file
is taken to appear.
-/

namespace Delivery

open Program Schema Text Surroundings Access Hosts Accounts Sessions Handlers Starting
open SessionRows (key)
open Lifecycle (quiet_userGroups quiet_domainGroups quiet_delegatedGroups)

/-! ## The five handlers -/

/-- A form together with the outcomes of the calls made for it. -/
inductive SessionPost where
  | reconnect (c : ReconnectCalls) (form : ReconnectRequest)
  | domainadmin (c : DomainCalls) (form : DomainAdminRequest)
  | deladmin (c : DelegatedCalls) (form : DelegatedAdminRequest)
  | staticsession (c : StaticCalls) (form : StaticUserSessionRequest)
  | usersession (c : UserCalls) (form : UserSessionRequest)

namespace SessionPost

def handle (cfg : Config) (req : Request) : SessionPost → Run Page
  | reconnect c form => handleReconnectPost cfg c req form
  | domainadmin c form => handleDomainAdminPost cfg c req form
  | deladmin c form => handleDelegatedAdminPost cfg c req form
  | staticsession c form => handleStaticSessionPost cfg c req form
  | usersession c form => handleUserSessionPost cfg c req form

/-- Outcomes of the calls from the start of the container on. -/
def launching : SessionPost → LaunchCalls
  | reconnect c _ => c.launch
  | domainadmin c _ => c.finish.launch
  | deladmin c _ => c.finish.launch
  | staticsession c _ => c.launch
  | usersession c _ => c.finish.launch

end SessionPost

/-! ## The session reaches its user -/

/-- The session has a row, and every row a statement finds under its key has
this port and this password. A session without an account name is never found
again, so each of its writes leaves another row. -/
structure Recorded (s : ProconsulSession) (p : Nat) (password : String) (w : World) : Prop where
  stored : ∃ r ∈ w.db.sessions, key r = key (sessionRow s) ∧ r.novncport = some p ∧
    r.vncpassword = some password
  found : ∀ r ∈ w.db.sessions, sameSession s r = true → r.novncport = some p ∧
    r.vncpassword = some password

/-- One port and one password in the answer, the container and the tables. -/
structure Reaches (cfg : Config) (req : Request) (ct : Container) (p : Nat)
    (out : Except Exn Page × World) : Prop where
  redirect : out.1 = .ok (.redirect ("https://" ++ cfg.novncHostname ++ cfg.novncUri ++
    "?encrypt=1&autoconnect=1&port=" ++ toString (5901 + p) ++ "&password=" ++ ct.vncpassword))
  display : ct.display = p
  portnum : ct.portnum = 5900 + p
  ext : ct.ext = 5901 + p
  session : ∃ s, s.owner = req.authUser ∧ Starting.Serves s ct ∧
    Recorded s p ct.vncpassword out.2
  port : ∃ row ∈ out.2.db.ports, row.portnum = p

/-! ## Up to the start -/

/-- No port has been given back. -/
def HoldsPorts (w w' : World) : Prop := ∀ row ∈ w.db.ports, row ∈ w'.db.ports

/-- Steps before the container is started. -/
abbrev Preparing : World → World → Prop := calmly HoldsPorts

theorem preparing_quiet : Quiet Preparing :=
  calmly_quiet (fun _ _ _ _ _ _ _ _ mem => mem)

theorem preparing_trans (w w' w'' : World) (h : Preparing w w') (h' : Preparing w' w'') :
    Preparing w w'' :=
  calmly_trans (fun _ _ _ held held' row mem => held' row (held row mem)) w w' w'' h h'

theorem preparing_permits (s : ProconsulSession) : Permits Preparing s :=
  calmly_permits ⟨fun _ _ mem => mem, fun _ _ mem => mem⟩

theorem preparing_reserve (row : PortRow) (w : World) : Preparing w (reserve row w) :=
  ⟨fun _ mem => List.mem_append_left _ mem, [.portReserved row.portnum], rfl, rfl⟩

/-- The session belongs to the user, has a password, and its port is reserved. -/
structure Ready (au : AuthUser) (s : ProconsulSession) (w : World) : Prop where
  owner : s.owner = au
  password : s.vncPassword ≠ none
  port : ∃ row ∈ w.db.ports, row.portnum = s.novncPort
  dated : s.startTime.isSome = true

theorem Ready.later {au : AuthUser} {s : ProconsulSession} {w w' : World} (ready : Ready au s w)
    (prepared : Preparing w w') : Ready au s w' := by
  obtain ⟨row, mem, number⟩ := ready.port
  exact ⟨ready.owner, ready.password, ⟨row, prepared.1 row mem, number⟩, ready.dated⟩

/-- The program ends without having started a container, or goes over into
`launch` with a session that is ready for it. -/
def HandsOver (cfg : Config) (c : LaunchCalls) (au : AuthUser) (p : Run Page) (w : World) : Prop :=
  Calm w (p.run w).2 ∨ ∃ size s addr w₁, p.run w = (launch cfg c size s addr).run w₁ ∧
    Calm w w₁ ∧ Ready au s w₁

section HandingOver

variable {cfg : Config} {c : LaunchCalls} {au : AuthUser} {α : Type} {w : World}

theorem calm_refl (w : World) : Calm w w := ⟨[], by simp, rfl⟩

theorem handsOver_pure (page : Page) : HandsOver cfg c au (pure page) w := .inl (calm_refl w)

theorem handsOver_launch (size : Image) {s : ProconsulSession} (addr : Option String)
    (ready : Ready au s w) : HandsOver cfg c au (launch cfg c size s addr) w :=
  .inr ⟨size, s, addr, w, rfl, calm_refl w, ready⟩

theorem HandsOver.earlier {p q : Run Page} {w₁ : World} (calm : Calm w w₁)
    (same : p.run w = q.run w₁) (h : HandsOver cfg c au q w₁) : HandsOver cfg c au p w := by
  rcases h with ended | ⟨size, s, addr, w₂, hrun, calm', ready⟩
  · rw [HandsOver, same]
    exact .inl (calm_trans _ _ _ calm ended)
  · exact .inr ⟨size, s, addr, w₂, same.trans hrun, calm_trans _ _ _ calm calm', ready⟩

theorem handsOver_bind {p : Run α} {f : α → Run Page} {Q : α → Prop} (steps : p.Steps Preparing)
    (returns : p.Returns Q)
    (next : ∀ a w₁, Q a → Preparing w w₁ → HandsOver cfg c au (f a) w₁) :
    HandsOver cfg c au (p >>= f) w := by
  have prepared := Prog.run_related preparing_quiet.refl preparing_trans steps w
  rcases hr : p.run w with ⟨e | a, w₁⟩
  · rw [hr] at prepared
    rw [HandsOver, Prog.run_bind_error hr]
    exact .inl prepared.2
  · rw [hr] at prepared
    have value : Q a := returns.run (congrArg Prod.fst hr)
    exact (next a w₁ value prepared).earlier prepared.2 (Prog.run_bind_ok hr)

theorem handsOver_then {p : Run α} {f : α → Run Page} (steps : p.Steps Preparing)
    (next : ∀ a w₁, Preparing w w₁ → HandsOver cfg c au (f a) w₁) :
    HandsOver cfg c au (p >>= f) w :=
  handsOver_bind steps (Prog.returns_any p) (fun a w₁ _ prepared => next a w₁ prepared)

/-- Gates write tokens at most. -/
theorem handsOver_gated {gs : List Gate} (tokens : ∀ g ∈ gs, g.Steps OnlyTokens)
    {f : Option Page → Run Page} (stopped : ∀ page, f (some page) = pure page)
    (passed : ∀ w₁, HandsOver cfg c au (f none) w₁) :
    HandsOver cfg c au (inOrder gs >>= f) w := by
  have steps : (inOrder gs).Steps Preparing :=
    Prog.steps_mono (fun _ _ => preparing_quiet.onlyTokens) (steps_inOrder tokens)
  refine handsOver_then steps (fun page w₁ _ => ?_)
  cases page with
  | none => exact passed w₁
  | some page =>
    rw [stopped]
    exact handsOver_pure page

theorem handsOver_withAccount {create : CreateCalls} {o : Option AuthUser} {gs : List Gate}
    (tokens : ∀ g ∈ gs, g.Steps OnlyTokens) {body : ADUser → Run Page}
    (next : ∀ u w₁, HandsOver cfg c au (body u) w₁) :
    HandsOver cfg c au (withAccount cfg create o (inOrder gs) body) w := by
  refine handsOver_gated tokens (fun _ => rfl) (fun w₁ => ?_)
  refine handsOver_then (quiet_createRandomizedADUser preparing_quiet cfg create o)
    (fun made w₂ _ => ?_)
  exact handsOver_then (steps_deref made) (fun u w₃ _ => next u w₃)

theorem handsOver_port {calls : PortCalls} {s : ProconsulSession} {f : Nat → Run Page}
    (next : ∀ port w₁, (∃ row ∈ w₁.db.ports, row.portnum = port) →
      HandsOver cfg c au (f port) w₁) :
    HandsOver cfg c au (getVncPortNumber calls s >>= f) w := by
  rcases run_getVncPortNumber calls s w with ⟨-, e, hrun⟩ | ⟨-, row, hrun⟩
  · rw [HandsOver, Prog.run_bind_error hrun]
    exact .inl (calm_refl w)
  · have listed : row ∈ (reserve row w).db.ports := List.mem_append_right _ List.mem_cons_self
    exact (next row.portnum (reserve row w) ⟨row, listed, rfl⟩).earlier
      (preparing_reserve row w).2 (Prog.run_bind_ok hrun)

theorem handsOver_write {calls : WriteCalls} {s : ProconsulSession} {addr : Option String}
    {f : Unit → Run Page} (next : ∀ w₁, Preparing w w₁ → HandsOver cfg c au (f ()) w₁) :
    HandsOver cfg c au (writeSessionToDB calls s addr >>= f) w :=
  handsOver_then (steps_writeSessionToDB preparing_quiet.logs (preparing_permits s) calls addr)
    (fun _ w₁ prepared => next w₁ prepared)

/-- Recording a session changes neither its owner nor its password, and dates it. -/
theorem returns_recorded (calls : OpenCalls) (s : ProconsulSession) (addr : Option String)
    (port : Nat) :
    (recordSession calls s addr port).Returns (fun s' => s'.owner = s.owner ∧
      s'.vncPassword = s.vncPassword ∧ s'.novncPort = port ∧
      s'.startTime = some calls.startTime) := by
  have gateway : ∀ s₁ : ProconsulSession, (addGatewayToSession calls.gateway s₁).Returns
      (fun s' => s'.owner = s₁.owner ∧ s'.vncPassword = s₁.vncPassword ∧
        s'.novncPort = s₁.novncPort ∧ s'.startTime = s₁.startTime) := by
    intro s₁
    rw [addGatewayToSession]
    split
    · exact Prog.returns_pure ⟨rfl, rfl, rfl, rfl⟩
    · exact Prog.returns_bind (Prog.returns_any _)
        (fun _ _ => Prog.returns_pure ⟨rfl, rfl, rfl, rfl⟩)
  refine Prog.returns_bind (gateway _) (fun s' kept => ?_)
  exact Prog.returns_bind (Prog.returns_any _) (fun _ _ => Prog.returns_pure kept)

theorem handsOver_openSession {calls : OpenCalls} {s : ProconsulSession} {addr : Option String}
    {f : ProconsulSession → Run Page} (owner : s.owner = au) (password : s.vncPassword ≠ none)
    (next : ∀ s' w₁, Ready au s' w₁ → HandsOver cfg c au (f s') w₁) :
    HandsOver cfg c au (openSession calls s addr >>= f) w := by
  refine HandsOver.earlier (calm_refl w) (run_openSession_bind calls s addr f w) ?_
  refine handsOver_port (fun port w₁ reserved => ?_)
  have steps : (recordSession calls s addr port).Steps Preparing :=
    steps_recordSession preparing_quiet.logs (fun s' _ => preparing_permits s') addr
  refine handsOver_bind steps (returns_recorded calls s addr port) ?_
  rintro s' w₂ ⟨owner', password', port', time⟩ prepared
  have ready : Ready au s' w₁ :=
    ⟨owner'.trans owner, by rwa [password'], by rwa [port'], by rw [time]; rfl⟩
  exact next s' w₂ (ready.later prepared)

theorem handsOver_finishSession {calls : FinishCalls} {size : Image} {s : ProconsulSession}
    {u : Option ADUser} {addr : Option String} (ready : Ready au s w) :
    HandsOver cfg calls.launch au (finishSession cfg calls size s u addr) w := by
  refine handsOver_then (steps_deref u) (fun u' w₁ prepared => ?_)
  refine handsOver_write (fun w₂ prepared' => ?_)
  have same : Ready au { s with targetUser := u' } w :=
    ⟨ready.owner, ready.password, ready.port, ready.dated⟩
  exact handsOver_launch size addr ((same.later prepared).later prepared')

end HandingOver

section Handlers

variable (cfg : Config) (req : Request) (w : World)

theorem handsOver_usersession (c : UserCalls) (form : UserSessionRequest) :
    HandsOver cfg c.finish.launch req.authUser (handleUserSessionPost cfg c req form) w := by
  refine handsOver_withAccount (onlyTokens_userGates c req form) (fun u w₁ => ?_)
  refine handsOver_then (steps_deref _) (fun displayName w₂ _ => ?_)
  refine handsOver_then (steps_deref _) (fun target w₃ _ => ?_)
  refine handsOver_openSession rfl (by simp [newSession]) (fun s w₄ ready => ?_)
  refine handsOver_then (quiet_userGroups preparing_quiet cfg c.groups _ _ u _)
    (fun o w₅ prepared => ?_)
  exact handsOver_finishSession (ready.later prepared)

theorem handsOver_staticsession (c : StaticCalls) (form : StaticUserSessionRequest) :
    HandsOver cfg c.launch req.authUser (handleStaticSessionPost cfg c req form) w := by
  refine handsOver_gated (onlyTokens_staticGates c req form) (fun _ => rfl) (fun w₁ => ?_)
  refine handsOver_then (quiet_getStaticADUser preparing_quiet _ _ _ _ _) (fun u w₂ _ => ?_)
  refine handsOver_then (steps_deref _) (fun displayName w₃ _ => ?_)
  refine handsOver_then (steps_deref _) (fun target w₄ _ => ?_)
  exact handsOver_openSession rfl (by simp [newSession])
    (fun s w₅ ready => handsOver_launch _ _ ready)

theorem handsOver_domainadmin (c : DomainCalls) (form : DomainAdminRequest) :
    HandsOver cfg c.finish.launch req.authUser (handleDomainAdminPost cfg c req form) w := by
  refine handsOver_then (steps_deref _) (fun target w₁ _ => ?_)
  refine handsOver_then (steps_deref _) (fun displayName w₂ _ => ?_)
  refine handsOver_withAccount (onlyTokens_domainGates c req form _) (fun u w₃ => ?_)
  refine handsOver_openSession rfl (by simp [newSession]) (fun s w₄ ready => ?_)
  refine handsOver_then (quiet_domainGroups preparing_quiet cfg c _ _ u _)
    (fun r w₅ prepared => ?_)
  cases r with
  | inl page => exact handsOver_pure page
  | inr o => exact handsOver_finishSession (ready.later prepared)

theorem handsOver_deladmin (c : DelegatedCalls) (form : DelegatedAdminRequest) :
    HandsOver cfg c.finish.launch req.authUser (handleDelegatedAdminPost cfg c req form) w := by
  refine handsOver_then (steps_deref _) (fun host w₁ _ => ?_)
  refine handsOver_then (steps_deref _) (fun displayName w₂ _ => ?_)
  refine handsOver_withAccount (onlyTokens_delegatedGates c req form _) (fun u w₃ => ?_)
  refine handsOver_openSession rfl (by simp [newSession]) (fun s w₄ ready => ?_)
  refine handsOver_then (quiet_delegatedGroups preparing_quiet cfg c _ _ _ u _)
    (fun r w₅ prepared => ?_)
  cases r with
  | inl page => exact handsOver_pure page
  | inr o => exact handsOver_finishSession (ready.later prepared)

/-- Sessions are read back for the user who asks. -/
theorem returns_own (c : SessionCalls) (au : AuthUser) :
    (getAvailableSessions cfg c au).Returns (fun psa => ∀ s ∈ psa, s.owner = au) := by
  have loop : ∀ rows retval, (∀ s ∈ retval, s.owner = au) →
      (loadSessions cfg c au rows retval).Returns (fun psa => ∀ s ∈ psa, s.owner = au) := by
    intro rows
    induction rows with
    | nil => exact fun retval own => Prog.returns_pure own
    | cons r rest ih =>
      intro retval own
      refine Prog.returns_bind (Prog.returns_any _) (fun user _ => ?_)
      cases rowStatus r.1 with
      | none => exact Prog.returns_pure own
      | some status =>
        refine ih _ (fun s mem => ?_)
        rcases List.mem_append.mp mem with old | new
        · exact own s old
        · cases List.mem_singleton.mp new
          rfl
  refine Prog.returns_bind (Prog.returns_any _) (fun rows _ => ?_)
  cases rows with
  | none => exact Prog.returns_pure (by simp)
  | some rows => exact loop _ _ (by simp)

theorem handsOver_reconnect (c : ReconnectCalls) (form : ReconnectRequest) :
    HandsOver cfg c.launch req.authUser (handleReconnectPost cfg c req form) w := by
  refine handsOver_gated (onlyTokens_reconnectGates c req form) (fun _ => rfl) (fun w₁ => ?_)
  refine handsOver_bind ((reads_getAvailableSessions _ _ _).steps preparing_quiet.refl)
    (returns_own cfg c.sessions req.authUser) (fun psa w₂ own _ => ?_)
  cases chosen : chooseSession req.authUser form.targetFQDN psa with
  | none => exact handsOver_pure _
  | some s =>
    have owner : s.owner = req.authUser :=
      own s (List.mem_filter.mp (List.mem_of_getLast? chosen)).1
    refine handsOver_port (fun port w₃ reserved => ?_)
    refine handsOver_then (quiet_setRandomADPassword preparing_quiet _ _ _)
      (fun u w₄ prepared => ?_)
    refine handsOver_write (fun w₅ prepared' => handsOver_launch _ _ ?_)
    have ready : Ready req.authUser { s with
        novncPort := port
        status := .starting
        startTime := some c.startTime
        targetUser := u
        vncPassword := some c.vncPassword } w₃ := ⟨owner, by simp, reserved, rfl⟩
    exact (ready.later prepared).later prepared'

theorem handsOver_handle (post : SessionPost) :
    HandsOver cfg post.launching req.authUser (post.handle cfg req) w := by
  cases post with
  | reconnect c form => exact handsOver_reconnect cfg req w c form
  | domainadmin c form => exact handsOver_domainadmin cfg req w c form
  | deladmin c form => exact handsOver_deladmin cfg req w c form
  | staticsession c form => exact handsOver_staticsession cfg req w c form
  | usersession c form => exact handsOver_usersession cfg req w c form

end Handlers

/-! ## From the start on -/

/-- A start that raises leaves no container running; one that returns has
handed the session's port and password to its container. -/
theorem run_start (cfg : Config) (c : ContainerCalls) (size : Image) (s : ProconsulSession)
    (w : World) :
    (∃ e w₁, (start cfg c size s).run w = (.error e, w₁) ∧ Calm w w₁) ∨
    ∃ ct w₁, (start cfg c size s).run w = (.ok (), w₁) ∧ w₁.db = w.db ∧
      w₁.trace = w.trace ++ [.containerCreated w.engine.nextId, .containerStarted ct] ∧
      Starting.Serves s ct ∧ ct.vncpassword = javaString s.vncPassword := by
  rw [start]
  split
  · exact .inl ⟨_, w, rfl, calm_refl w⟩
  · split
    · exact .inl ⟨_, w, rfl, calm_refl w⟩
    · rw [Prog.run_bind, createContainer, Prog.run_atom]
      cases c.create with
      | true => exact .inl ⟨_, w, rfl, calm_refl w⟩
      | false =>
        simp only [Bool.false_eq_true, if_false, startContainer, Prog.run_atom, Engine.find_create]
        cases c.start with
        | true => exact .inl ⟨_, _, rfl, _, rfl, rfl⟩
        | false =>
          exact .inr ⟨_, _, rfl, rfl, List.append_assoc _ _ _, ⟨rfl, rfl, rfl⟩, rfl⟩

/-- After a write that succeeds the session is in the table with its port and password. -/
theorem recorded_after_write {c : WriteCalls} (succeeds : c.succeed = true) {s : ProconsulSession}
    (dated : s.startTime.isSome = true) (addr : Option String) {password : String}
    (secret : s.vncPassword = some password)
    (w : World) : Recorded s s.novncPort password ((writeSessionToDB c s addr).run w).2 := by
  have table := sessions_after_write succeeds dated addr w
  cases present : w.db.sessions.any (sameSession s) with
  | true =>
    rw [present, if_pos rfl] at table
    obtain ⟨r, mem, same⟩ := List.any_eq_true.mp present
    have keyed := SessionRows.keyed_of_sameSession same
    constructor
    · rw [table]
      refine ⟨refreshRow s r, List.mem_map.mpr ⟨r, mem, if_pos same⟩, ?_, rfl, secret⟩
      exact (SessionRows.sameSession_iff keyed r).mp same
    · rw [table]
      intro r' mem' same'
      obtain ⟨r₀, -, rfl⟩ := List.mem_map.mp mem'
      by_cases selected : sameSession s r₀ = true
      · rw [if_pos selected]
        exact ⟨rfl, secret⟩
      · rw [if_neg selected] at same'
        exact absurd same' selected
  | false =>
    rw [present, if_neg (by simp)] at table
    constructor
    · rw [table]
      exact ⟨sessionRow s, List.mem_append_right _ List.mem_cons_self, rfl, rfl, secret⟩
    · rw [table]
      intro r mem same
      rcases List.mem_append.mp mem with old | new
      · exact absurd same (List.any_eq_false.mp present r old)
      · cases List.mem_singleton.mp new
        exact ⟨rfl, secret⟩

theorem not_reaches_of_raised {cfg : Config} {req : Request} {ct : Container} (e : Exn)
    (w : World) : ¬ ∃ p, Reaches cfg req ct p (.error e, w) := by
  rintro ⟨p, reached⟩
  cases reached.redirect

/-- A launch starts no container, or starts one and reaches the user exactly if
the directory of ready files exists and the last write succeeds. -/
theorem launch_reaches_iff (cfg : Config) (c : LaunchCalls) (size : Image) {s : ProconsulSession}
    (addr : Option String) {req : Request} {w : World} (ready : Ready req.authUser s w) :
    Calm w ((launch cfg c size s addr).run w).2 ∨
    ∃ ct effects, ((launch cfg c size s addr).run w).2.trace = w.trace ++ effects ∧
      started effects = [ct] ∧
      ((∃ p, Reaches cfg req ct p ((launch cfg c size s addr).run w)) ↔
        c.spool = true ∧ c.write.succeed = true) := by
  rw [launch]
  rcases run_start cfg c.container size s w with ⟨e, w₁, hstart, calm⟩ |
    ⟨ct, w₁, hstart, tables, trace, serves, password⟩
  · left
    rw [Prog.run_bind_error hstart]
    exact calm
  · right
    rw [Prog.run_bind_ok hstart]
    obtain ⟨secret, hsecret⟩ := Option.ne_none_iff_exists'.mp ready.password
    have given : ct.vncpassword = secret := by
      rw [password, hsecret]
      rfl
    let connected := { s with status := .connected }
    obtain ⟨⟨held, es, added, calm⟩, hout⟩ := delivers_writeSessionToDB preparing_quiet.logs
      preparing_trans (preparing_permits connected) ready.dated c.write addr w₁
    have one : started ([.containerCreated w.engine.nextId, .containerStarted ct] ++ es) = [ct] := by
      rw [started_append, calm]
      rfl
    have log : w₁.trace ++ es =
        w.trace ++ ([.containerCreated w.engine.nextId, .containerStarted ct] ++ es) := by
      rw [trace, List.append_assoc]
    have recorded : c.write.succeed = true → Recorded connected s.novncPort ct.vncpassword
        ((writeSessionToDB c.write connected addr).run w₁).2 := by
      rw [given]
      exact fun succeeds => recorded_after_write (s := connected) succeeds ready.dated addr hsecret w₁
    rcases hwrite : (writeSessionToDB c.write connected addr).run w₁ with ⟨r, w₂⟩
    rw [hwrite] at held added hout recorded
    rcases hout with ⟨succeeds, _, rfl, -⟩ | ⟨fails, e, rfl⟩
    · rw [Prog.run_bind_ok hwrite, awaitReady]
      cases spool : c.spool with
      | false =>
        -- `fcheck.exists()` in the finally clause
        exact ⟨ct, _, added.trans log, one, iff_of_false (not_reaches_of_raised _ _) (by simp)⟩
      | true =>
        obtain ⟨row, listed, number⟩ := ready.port
        have listed₁ : row ∈ w₁.db.ports := by rwa [tables]
        refine ⟨ct, _, added.trans log, one, iff_of_true ⟨s.novncPort, ?_⟩ ⟨rfl, succeeds⟩⟩
        exact {
          redirect := by rw [password]; rfl
          display := serves.display
          portnum := by rw [Container.portnum, serves.display, Nat.add_comm]
          ext := by rw [Container.ext, serves.display, Nat.add_comm]
          session := ⟨connected, ready.owner, ⟨serves.rhostname, serves.winuser, serves.display⟩,
            recorded succeeds⟩
          port := ⟨row, held row listed₁, number⟩ }
    · rw [Prog.run_bind_error hwrite]
      exact ⟨ct, _, added.trans log, one,
        iff_of_false (not_reaches_of_raised _ _) (fun h => fails h.2)⟩

/-- A container that a request has started serves its user, on one port and
under one password, exactly if /var/spool/docker exists and the database
accepts the session as connected. -/
theorem started_session_reaches_iff (cfg : Config) (post : SessionPost) (req : Request) (w : World)
    (ct : Container) (begun : ct ∈ started (newEffects w ((post.handle cfg req).run w).2)) :
    (∃ p, Reaches cfg req ct p ((post.handle cfg req).run w)) ↔
      post.launching.spool = true ∧ post.launching.write.succeed = true := by
  have none_of_calm : ∀ {w'}, Calm w w' → ct ∉ started (newEffects w w') := by
    rintro w' ⟨effects, added, calm⟩ mem
    rw [newEffects_of_append added, calm] at mem
    cases mem
  rcases handsOver_handle cfg req w post with ended | ⟨size, s, addr, w₁, hrun, before, ready⟩
  · exact absurd begun (none_of_calm ended)
  · rw [hrun] at begun ⊢
    rcases launch_reaches_iff cfg post.launching size addr ready with
      calm | ⟨ct', effects, added, one, reaches⟩
    · exact absurd begun (none_of_calm (calm_trans _ _ _ before calm))
    · obtain ⟨es, hes, calm⟩ := before
      have all : ((launch cfg post.launching size s addr).run w₁).2.trace =
          w.trace ++ (es ++ effects) := by
        rw [added, hes, List.append_assoc]
      rw [newEffects_of_append all, started_append, calm, one, List.nil_append] at begun
      rw [List.mem_singleton.mp begun]
      exact reaches

/-- Pat's request of `sampleForm`, where the spool directory may or may not exist. -/
def patPosts (spool : Bool) : SessionPost :=
  .usersession { UserCalls.noOutage "ab3de6fgh-eas" "secret" "vncsecret" with
    finish := ⟨.noOutage, { LaunchCalls.noOutage with spool := spool }⟩ } sampleForm

/-- The container that serves it. -/
def patContainer : Container where
  id := 0
  image := .default
  vncpassword := "vncsecret"
  winuser := "ab3de6fgh-eas"
  domain := sampleConfig.domain
  winpass := "secret"
  rhostname := "host1.dom.ain"
  display := 2
  gateway := none
  status := .running
  launched := false

theorem pat_reached :
    patContainer ∈ started (newEffects sampleSite
      (((patPosts true).handle sampleConfig sampleRequest).run sampleSite).2) ∧
    ∃ p, Reaches sampleConfig sampleRequest patContainer p
      (((patPosts true).handle sampleConfig sampleRequest).run sampleSite) := by
  have begun : patContainer ∈ started (newEffects sampleSite
      (((patPosts true).handle sampleConfig sampleRequest).run sampleSite).2) := by decide +kernel
  exact ⟨begun, (started_session_reaches_iff sampleConfig (patPosts true) sampleRequest sampleSite
    patContainer begun).mpr ⟨rfl, rfl⟩⟩

/-- Without the directory the container runs, and Pat gets a null pointer exception. -/
theorem pat_stranded :
    patContainer ∈ started (newEffects sampleSite
      (((patPosts false).handle sampleConfig sampleRequest).run sampleSite).2) ∧
    ¬ ∃ p, Reaches sampleConfig sampleRequest patContainer p
      (((patPosts false).handle sampleConfig sampleRequest).run sampleSite) := by
  refine ⟨by decide +kernel, ?_⟩
  have raised : (((patPosts false).handle sampleConfig sampleRequest).run sampleSite).1 =
      .error .nullPointer := by decide +kernel
  rintro ⟨p, reached⟩
  rw [reached.redirect] at raised
  cases raised

end Delivery
