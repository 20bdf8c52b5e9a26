import Mathlib.Data.List.Nodup
import Proconsul.Interleaving
import Proconsul.Cleanup

/-!
# The life of a session, from port to `docker rm`

Requests to the five handlers, runs of docker-gen and the containers
themselves take turns, one statement, directory call or engine call at a time.
`Move` says what a single step can do to ports, containers and pending scripts
in each phase of a program, and `conforms_spawned` that every program which can
be running keeps to it. Steps that touch none of the three are not told apart.
-/

namespace Lifecycle

open Program Schema Text Surroundings Access Hosts Accounts Sessions Handlers Cleanup Interleaving

/-! ## Phases and moves -/

/-- Ports, containers and pending scripts stay, and no session is cleaned up. -/
structure Apart (w w' : World) : Prop where
  ports : w'.db.ports = w.db.ports
  engine : w'.engine = w.engine
  scripts : w'.scripts = w.scripts
  log : ∃ effects, w'.trace = w.trace ++ effects ∧ ∀ c, .cleaned c ∉ effects

/-- How far a program has come: `choosing` before the insert into `ports`,
`holding` after it, `pending` between `docker create` and `docker start`, and
`sweeping` with the containers whose scripts are still to be finished, the
first of them with or without its port. -/
inductive Phase where
  | idle
  | choosing (portnum : Nat)
  | holding (portnum : Nat)
  | pending (id : Nat)
  | sweeping (todo : List Container) (released : Bool)

/-- The commands of the script that touch sessions or accounts. -/
def Cleans (adbase : String) (c : Container) (w w' : World) : Prop :=
  w' = deleteSessions c w ∨ w' = disconnectSessions c w ∨ w' = deleteAccount adbase c w

inductive Move (adbase : String) : Phase → World → World → Phase → Prop where
  | apart {ph : Phase} {w w' : World} (h : Apart w w') : Move adbase ph w w' ph
  | choose {w : World} {p : Nat} (h : p = maxPort w.db + 2) : Move adbase .idle w w (.choosing p)
  | probe {w : World} {p q : Nat} (h : q ∈ candidates) :
      Move adbase (.choosing p) w w (.choosing q)
  | reserve {w : World} {row : PortRow}
      (free : w.db.ports.any (fun r => r.portnum == row.portnum) = false) :
      Move adbase (.choosing row.portnum) w (reserve row w) (.holding row.portnum)
  | create {w : World} {make : Nat → Container} {effects : List Effect}
      (new : (make w.engine.nextId).status = .created)
      (other : ∀ c, Effect.cleaned c ∉ effects) :
      Move adbase (.holding (make w.engine.nextId).display) w
        { w with engine := w.engine.create make, trace := w.trace ++ effects }
        (.pending w.engine.nextId)
  | start {w : World} {id : Nat} {status : ContainerStatus} {effects : List Effect}
      (new : status ≠ .created) (other : ∀ c, Effect.cleaned c ∉ effects) :
      Move adbase (.pending id) w
        { w with engine := w.engine.setStatus id status, trace := w.trace ++ effects } .idle
  | snapshot {w : World} {stopped : List Container}
      (all : stopped.Perm (w.engine.containers.filter (fun c => c.status ≠ .running))) :
      Move adbase .idle w { w with scripts := w.scripts ++ stopped.map Container.id }
        (.sweeping stopped false)
  | clean {w w' : World} {c : Container} {rest : List Container} {released : Bool}
      (h : Cleans adbase c w w') :
      Move adbase (.sweeping (c :: rest) released) w w' (.sweeping (c :: rest) released)
  | release {w : World} {c : Container} {rest : List Container} :
      Move adbase (.sweeping (c :: rest) false) w (deletePort c w) (.sweeping (c :: rest) true)
  | remove {w : World} {c : Container} {rest : List Container} :
      Move adbase (.sweeping (c :: rest) true) w (removeContainer c w) (.sweeping rest false)

/-! ## Programs and surroundings -/

/-- A request whose page is of no further interest. -/
def served (p : Run Page) : Run Unit := do
  let _ ← p

inductive Spawned (cfg : Config) (adbase : String) : Run Unit → Prop where
  | user (c : UserCalls) (req : Request) (form : UserSessionRequest) :
      Spawned cfg adbase (served (handleUserSessionPost cfg c req form))
  | static (c : StaticCalls) (req : Request) (form : StaticUserSessionRequest) :
      Spawned cfg adbase (served (handleStaticSessionPost cfg c req form))
  | domain (c : DomainCalls) (req : Request) (form : DomainAdminRequest) :
      Spawned cfg adbase (served (handleDomainAdminPost cfg c req form))
  | delegated (c : DelegatedCalls) (req : Request) (form : DelegatedAdminRequest) :
      Spawned cfg adbase (served (handleDelegatedAdminPost cfg c req form))
  | reconnect (c : ReconnectCalls) (req : Request) (form : ReconnectRequest) :
      Spawned cfg adbase (served (handleReconnectPost cfg c req form))
  | cleanup (calls : ScriptCalls) : Spawned cfg adbase (cleanup adbase calls)

/-- Another name that is drawn for Pat. -/
theorem plainName_second : plainName "zy2xw4vut-eas" = true := by decide

/-- Pat asks for a session and is given an account of that name. -/
def patOpens (sam : String) (drawn : plainName sam = true := by exact plainName_pats) : Run Unit :=
  served (handleUserSessionPost sampleConfig (.noOutage sam "secret" "vncsecret" drawn) sampleRequest
    sampleForm)

def patReconnects : Run Unit :=
  served (handleReconnectPost sampleConfig (.noOutage "secret2" "vncsecret2") sampleRequest
    sampleReconnect)

/-- What running containers do on their own: launch their client, and exit. -/
inductive Docker : World → World → Prop where
  | launch {w : World} {c : Container} (up : c ∈ running w.engine) :
      Docker w { w with engine := w.engine.launch c.id }
  | exit {w : World} {c : Container} (up : c ∈ running w.engine) (retval : Option Nat) :
      Docker w { w with engine := w.engine.setStatus c.id (.exited retval) }

theorem Docker.trace {w w' : World} (moved : Docker w w') : w'.trace = w.trace := by
  cases moved <;> rfl

/-! ## Steps apart -/

theorem apart_refl (w : World) : Apart w w := ⟨rfl, rfl, rfl, [], by simp, by simp⟩

theorem apart_quiet : Quiet Apart := by
  intro w accounts log admins tokens effects quiet
  refine ⟨rfl, rfl, rfl, effects, rfl, fun c hc => ?_⟩
  exact absurd (quiet _ hc) (by simp [Effect.quiet])

theorem apart_permits (s : ProconsulSession) : Permits Apart s :=
  ⟨fun _ => ⟨rfl, rfl, rfl, _, rfl, by simp⟩, fun _ => ⟨rfl, rfl, rfl, _, rfl, by simp⟩⟩

variable {adbase : String}

theorem move_apart (ph : Phase) (w w' : World) (h : Apart w w') : Move adbase ph w w' ph := .apart h

/-- No condition on how a program ends. -/
def anyEnd {α : Type} (_ : Except Exn α) (_ : Phase) : Prop := True

theorem conforms_apart {α β : Type} {V : α → Prop} {p : Run α} {f : α → Run β}
    {Q : Except Exn β → Phase → Prop} {ph : Phase} (hp : p.Steps Apart) (hv : p.Returns V)
    (hf : ∀ a, V a → Conforms (Move adbase) Q (f a) ph) (herr : ∀ e, Q (.error e) ph) :
    Conforms (Move adbase) Q (p >>= f) ph :=
  conforms_bind_steps (move_apart ph) hp hv hf herr

theorem conforms_apart_end {α : Type} {p : Run α} {ph : Phase} (hp : p.Steps Apart) :
    Conforms (Move adbase) anyEnd p ph :=
  conforms_weaken (conforms_of_steps (move_apart ph) hp (Prog.returns_any p)) (fun _ _ _ => trivial)

/-! ## Handlers -/

/-- The number in hand is the one that will be inserted. -/
def chosen : Except Exn Nat → Phase → Prop := fun r ph => ∀ p, r = .ok p → ph = .choosing p

theorem conforms_probe (fails : Nat → Bool) (is : List Nat) (next : Nat)
    (sub : ∀ i ∈ is, i ∈ candidates) :
    Conforms (Move adbase) chosen (probe fails is next) (.choosing next) := by
  induction is with
  | nil =>
    intro p hp
    cases hp
    rfl
  | cons i rest ih =>
    refine conforms_bind (Q := fun r ph => ∀ b, r = .ok b →
      ph = if b then .choosing next else .choosing i) (conforms_atom (fun w => ?_)) ?_ ?_
    · split
      · exact ⟨_, .apart (apart_refl w), by simp⟩
      · cases hb : w.db.ports.any (fun r => r.portnum == i) with
        | true =>
          refine ⟨.choosing next, .apart (apart_refl w), ?_⟩
          rintro b ⟨⟩
          exact (if_pos hb).symm
        | false =>
          refine ⟨.choosing i, .probe (sub i List.mem_cons_self), ?_⟩
          rintro b ⟨⟩
          exact (if_neg (by simp [hb])).symm
    · intro taken ph hph
      cases taken with
      | true =>
        obtain rfl : ph = .choosing next := hph true rfl
        exact ih (fun j hj => sub j (List.mem_cons_of_mem i hj))
      | false =>
        obtain rfl : ph = .choosing i := hph false rfl
        intro p hp
        cases hp
        rfl
    · intro e ph _ p hp
      cases hp

theorem conforms_nextPort (c : PortCalls) :
    Conforms (Move adbase) chosen (nextPort c) .idle := by
  refine conforms_bind (Q := fun r ph => ∀ n, r = .ok n → ph = .choosing (n + 2))
    (conforms_atom (fun w => ?_)) ?_ ?_
  · split
    · exact ⟨.idle, .apart (apart_refl w), by simp⟩
    · exact ⟨.choosing (maxPort w.db + 2), .choose rfl, by simp⟩
  · intro highest ph hph
    obtain rfl : ph = .choosing (highest + 2) := hph highest rfl
    split
    · exact conforms_probe _ _ _ (fun _ hi => hi)
    · intro p hp
      cases hp
      rfl
  · intro e ph _ p hp
    cases hp

theorem conforms_getVncPortNumber (c : PortCalls) (s : ProconsulSession) :
    Conforms (Move adbase) (fun r ph => ∀ p, r = .ok p → ph = .holding p)
      (getVncPortNumber c s) .idle := by
  refine conforms_bind (conforms_nextPort c) ?_ ?_
  · intro retval ph hph
    obtain rfl : ph = .choosing retval := hph retval rfl
    split
    · intro p hp
      cases hp
    · refine conforms_bind (Q := fun r ph => ∀ b, r = .ok b → ph = .holding retval)
        (conforms_atom (fun w => ?_)) ?_ ?_
      · dsimp only
        split
        · exact ⟨_, .apart (apart_refl w), by simp⟩
        · rename_i free
          rw [Bool.not_eq_true, Bool.or_eq_false_iff] at free
          let row : PortRow := ⟨retval, s.fqdn, s.targetUser.sAMAccountName, s.owner.uid⟩
          have reserved : Move adbase (.choosing retval) w (reserve row w) (.holding retval) :=
            @Move.reserve adbase w row free.2
          exact ⟨.holding retval, reserved, by simp⟩
      · intro _ ph hph p hp
        cases hp
        exact hph _ rfl
      · intro e ph _ p hp
        cases hp
  · intro e ph _ p hp
    cases hp

theorem conforms_start (cfg : Config) (c : ContainerCalls) (size : Image) (s : ProconsulSession) :
    Conforms (Move adbase) anyEnd (start cfg c size s) (.holding s.novncPort) := by
  rw [start]
  split
  · trivial
  · split
    · trivial
    · refine conforms_bind (Q := fun r ph => ∀ id, r = .ok id → ph = .pending id)
        (conforms_atom (fun w => ?_)) ?_ (fun _ _ _ => trivial)
      · split
        · exact ⟨_, .apart (apart_refl w), by simp⟩
        · have created : Move adbase (.holding s.novncPort) w { w with
              engine := w.engine.create (sessionContainer cfg size s)
              trace := w.trace ++ [.containerCreated w.engine.nextId] }
              (.pending w.engine.nextId) :=
            @Move.create adbase w (sessionContainer cfg size s) _ rfl (by simp)
          exact ⟨.pending w.engine.nextId, created, by simp⟩
      · intro id ph hph
        obtain rfl : ph = .pending id := hph id rfl
        refine conforms_atom (fun w => ?_)
        cases found : w.engine.find id with
        | none => exact ⟨_, .apart (apart_refl w), trivial⟩
        | some ct =>
          cases c.start with
          | true =>
            have refused : Move adbase (.pending id) w { w with
                engine := w.engine.setStatus id .startFailed, trace := w.trace ++ [] } .idle :=
              .start (by simp) (by simp)
            rw [List.append_nil] at refused
            exact ⟨.idle, refused, trivial⟩
          | false => exact ⟨.idle, .start (by simp) (by simp), trivial⟩

theorem conforms_launch (cfg : Config) (c : LaunchCalls) (size : Image) (s : ProconsulSession)
    (addr : Option String) :
    Conforms (Move adbase) anyEnd (launch cfg c size s addr) (.holding s.novncPort) := by
  refine conforms_bind (conforms_start cfg c.container size s) (fun _ ph _ => ?_)
    (fun _ _ _ => trivial)
  apply conforms_apart_end
  refine Prog.steps_bind (steps_writeSessionToDB apart_quiet.logs (apart_permits _) _ _) (fun _ =>
    Prog.steps_bind ?_ (fun _ => Prog.steps_pure _))
  rw [awaitReady]
  split
  · exact Prog.steps_pure _
  · exact Prog.steps_throwing _

/-- The second write changes the session's account, not its display. -/
theorem conforms_finishSession (cfg : Config) (c : FinishCalls) (size : Image)
    (s : ProconsulSession) (u : Option ADUser) (addr : Option String) :
    Conforms (Move adbase) anyEnd (finishSession cfg c size s u addr) (.holding s.novncPort) := by
  refine conforms_apart (steps_deref u) (Prog.returns_any _) (fun u' _ => ?_) (fun _ => trivial)
  exact conforms_apart (steps_writeSessionToDB apart_quiet.logs (apart_permits _) _ _)
    (Prog.returns_any _) (fun _ _ => conforms_launch cfg c.launch size _ addr) (fun _ => trivial)

theorem conforms_openSession (c : OpenCalls) (s : ProconsulSession) (addr : Option String) :
    Conforms (Move adbase) (fun r ph => ∀ s', r = .ok s' → ph = .holding s'.novncPort)
      (openSession c s addr) .idle := by
  refine conforms_bind (conforms_getVncPortNumber c.port s) (fun port ph hph => ?_) ?_
  · obtain rfl : ph = .holding port := hph port rfl
    have recorded : (recordSession c s addr port).Steps Apart :=
      steps_recordSession apart_quiet.logs (fun _ _ => apart_permits _) addr
    refine conforms_weaken (conforms_of_steps (move_apart _) recorded (returns_recordSession addr)) ?_
    rintro r ph ⟨rfl, same⟩ s' rfl
    rw [(same s' rfl).port]
  · intro e ph _ s' hs'
    cases hs'

/-- What a request does once its session is open. -/
theorem conforms_opened {c : OpenCalls} {s : ProconsulSession} {addr : Option String}
    {f : ProconsulSession → Run Page}
    (hf : ∀ s', Conforms (Move adbase) anyEnd (f s') (.holding s'.novncPort)) :
    Conforms (Move adbase) anyEnd (openSession c s addr >>= f) .idle := by
  refine conforms_bind (conforms_openSession c s addr) (fun s' ph hph => ?_) (fun _ _ _ => trivial)
  obtain rfl : ph = .holding s'.novncPort := hph s' rfl
  exact hf s'

/-- A request behind its gates, for any protocol that does not notice a change of tokens. -/
theorem conforms_gates {φ : Type} {T : φ → World → World → φ → Prop}
    {Q : Except Exn Page → φ → Prop} {ph : φ} (neutral : ∀ w w', OnlyTokens w w' → T ph w w' ph)
    (ends : ∀ r, Q r ph) {gs : List Gate} (tokens : ∀ g ∈ gs, g.Steps OnlyTokens)
    {f : Option Page → Run Page} (stopped : ∀ page, f (some page) = pure page)
    (passed : Conforms T Q (f none) ph) : Conforms T Q (inOrder gs >>= f) ph := by
  refine conforms_bind_steps neutral (steps_inOrder tokens) (Prog.returns_any _) (fun page _ => ?_)
    (fun _ => ends _)
  cases page with
  | none => exact passed
  | some page =>
    rw [stopped]
    exact ends _

theorem conforms_gated {gs : List Gate} (tokens : ∀ g ∈ gs, g.Steps OnlyTokens)
    {f : Option Page → Run Page} (stopped : ∀ page, f (some page) = pure page)
    (passed : Conforms (Move adbase) anyEnd (f none) .idle) :
    Conforms (Move adbase) anyEnd (inOrder gs >>= f) .idle :=
  conforms_gates (fun _ _ only => .apart (apart_quiet.onlyTokens only)) (fun _ => trivial) tokens
    stopped passed

theorem conforms_withAccount {cfg : Config} {c : CreateCalls} {au : Option AuthUser}
    {gs : List Gate} (tokens : ∀ g ∈ gs, g.Steps OnlyTokens) {body : ADUser → Run Page}
    (hbody : ∀ u, Conforms (Move adbase) anyEnd (body u) .idle) :
    Conforms (Move adbase) anyEnd (withAccount cfg c au (inOrder gs) body) .idle := by
  refine conforms_gated tokens (fun _ => rfl) ?_
  refine conforms_apart (quiet_createRandomizedADUser apart_quiet cfg c au) (Prog.returns_any _)
    (fun o _ => ?_) (fun _ => trivial)
  exact conforms_apart (steps_deref o) (Prog.returns_any _) (fun u _ => hbody u) (fun _ => trivial)

/-! ### The groups of an account -/

theorem steps_userGroups {R : World → World → Prop} (refl : ∀ w, R w w)
    (add : ∀ fails sam userDn groupDN, (modify fails (addMember sam userDn groupDN)).Steps R)
    (log : ∀ fails event a h u g i, (audit fails event a h u g i).Steps R) (cfg : Config)
    (c : UserGroupCalls) (au : AuthUser) (target : Option String) (u : ADUser)
    (addr : Option String) : (userGroups cfg c au target u addr).Steps R := by
  have group : ∀ calls urn v, (addGroupToADUser cfg calls urn v (some au) addr).Steps R :=
    fun calls urn v => steps_addGroupToADUser refl add log _ _ _ _ _ _
  refine Prog.steps_bind (group _ _ _) (fun u₁ => ?_)
  refine Prog.steps_bind (steps_addHostAccessGroup refl add log _ _ _ _) (fun u₂ => ?_)
  refine Prog.steps_bind ((reads_groupDnsForEppn _ _).steps refl) (fun dns => ?_)
  refine Prog.steps_bind (Prog.steps_foldlM (fun _ _ => group _ _ _) _ _) (fun u₃ => ?_)
  exact steps_addGatewayAccessGroup refl add log _ _ _ _

section Groups

variable {R : World → World → Prop} (quiet : Quiet R)

include quiet

theorem quiet_userGroups (cfg : Config) (c : UserGroupCalls) (au : AuthUser)
    (target : Option String) (u : ADUser) (addr : Option String) :
    (userGroups cfg c au target u addr).Steps R :=
  steps_userGroups quiet.refl (quiet_addMember quiet) (quiet_audit quiet) _ _ _ _ _ _

theorem quiet_domainGroups (cfg : Config) (c : DomainCalls) (au : AuthUser) (host : String)
    (u : ADUser) (addr : Option String) : (domainGroups cfg c au host u addr).Steps R := by
  have undone : ∀ page : Page, (do
      let _ ← deleteAdUser cfg c.undo u (some au) addr
      return .inl page : Run (Page ⊕ Option ADUser)).Steps R := fun page =>
    Prog.steps_bind (quiet_deleteAdUser quiet _ _ _ _ _) (fun _ => Prog.steps_pure _)
  refine Prog.steps_bind (quiet_makeUserAuthorizedDA quiet _ _ _ _) (fun registered => ?_)
  cases registered with
  | false => exact undone _
  | true =>
    refine Prog.steps_bind (quiet_addGroupToADUser quiet _ _ _ _ _ _) (fun added => ?_)
    cases added with
    | none => exact undone _
    | some u₁ =>
      exact Prog.steps_bind (quiet_addGatewayAccessGroup quiet _ _ _ _) (fun _ => Prog.steps_pure _)

theorem quiet_orUndo (cfg : Config) (c : DeleteCalls) (au : AuthUser) (addr : Option String)
    (before : ADUser) (message : String) {add : Run (Option ADUser)}
    {next : ADUser → Run (Page ⊕ Option ADUser)} (hadd : add.Steps R)
    (hnext : ∀ u, (next u).Steps R) :
    (orUndo cfg c au addr before message add next).Steps R := by
  refine Prog.steps_bind hadd (fun added => ?_)
  cases added with
  | none => exact Prog.steps_bind (quiet_deleteAdUser quiet _ _ _ _ _) (fun _ => Prog.steps_pure _)
  | some u => exact hnext u

theorem quiet_delegatedGroups (cfg : Config) (c : DelegatedCalls) (au : AuthUser) (host : String)
    (roleGroup : Option String) (u : ADUser) (addr : Option String) :
    (delegatedGroups cfg c au host roleGroup u addr).Steps R := by
  refine Prog.steps_bind (quiet_addGroupToADUser quiet _ _ _ _ _ _) (fun _ => ?_)
  refine quiet_orUndo quiet _ _ _ _ _ _ (quiet_addHostAccessGroup quiet _ _ _ _) (fun _ => ?_)
  refine quiet_orUndo quiet _ _ _ _ _ _ ?_ (fun _ => ?_)
  · exact Prog.steps_bind ((reads_groupDnForFQDN _ _ _).steps quiet.refl)
      (fun _ => quiet_addGroupToADUser quiet _ _ _ _ _ _)
  refine quiet_orUndo quiet _ _ _ _ _ _ (quiet_addGroupToADUser quiet _ _ _ _ _ _) (fun _ => ?_)
  exact Prog.steps_bind (quiet_addGatewayAccessGroup quiet _ _ _ _) (fun _ => Prog.steps_pure _)

end Groups

/-! ### The five handlers -/

theorem conforms_served {p : Run Page} {ph : Phase} (h : Conforms (Move adbase) anyEnd p ph) :
    Conforms (Move adbase) anyEnd (served p) ph :=
  conforms_bind h (fun _ _ _ => trivial) (fun _ _ _ => trivial)

theorem conforms_handleUserSessionPost (cfg : Config) (c : UserCalls) (req : Request)
    (form : UserSessionRequest) :
    Conforms (Move adbase) anyEnd (handleUserSessionPost cfg c req form) .idle := by
  refine conforms_withAccount (onlyTokens_userGates c req form) (fun u => ?_)
  refine conforms_apart (steps_deref _) (Prog.returns_any _) (fun displayName _ => ?_)
    (fun _ => trivial)
  refine conforms_apart (steps_deref _) (Prog.returns_any _) (fun target _ => ?_) (fun _ => trivial)
  refine conforms_opened (fun s => ?_)
  exact conforms_apart (quiet_userGroups apart_quiet cfg c.groups _ _ u _) (Prog.returns_any _)
    (fun o _ => conforms_finishSession cfg c.finish _ s o _) (fun _ => trivial)

theorem conforms_handleStaticSessionPost (cfg : Config) (c : StaticCalls) (req : Request)
    (form : StaticUserSessionRequest) :
    Conforms (Move adbase) anyEnd (handleStaticSessionPost cfg c req form) .idle := by
  refine conforms_gated (onlyTokens_staticGates c req form) (fun _ => rfl) ?_
  refine conforms_apart (quiet_getStaticADUser apart_quiet _ _ _ _ _) (Prog.returns_any _)
    (fun u _ => ?_) (fun _ => trivial)
  refine conforms_apart (steps_deref _) (Prog.returns_any _) (fun displayName _ => ?_)
    (fun _ => trivial)
  refine conforms_apart (steps_deref _) (Prog.returns_any _) (fun target _ => ?_) (fun _ => trivial)
  exact conforms_opened (fun s => conforms_launch cfg c.launch _ s _)

theorem conforms_handleDomainAdminPost (cfg : Config) (c : DomainCalls) (req : Request)
    (form : DomainAdminRequest) :
    Conforms (Move adbase) anyEnd (handleDomainAdminPost cfg c req form) .idle := by
  refine conforms_apart (steps_deref _) (Prog.returns_any _) (fun target _ => ?_) (fun _ => trivial)
  refine conforms_apart (steps_deref _) (Prog.returns_any _) (fun displayName _ => ?_)
    (fun _ => trivial)
  refine conforms_withAccount (onlyTokens_domainGates c req form _) (fun u => ?_)
  refine conforms_opened (fun s => ?_)
  refine conforms_apart (quiet_domainGroups apart_quiet cfg c _ _ u _) (Prog.returns_any _)
    (fun r _ => ?_) (fun _ => trivial)
  cases r with
  | inl page => trivial
  | inr o => exact conforms_finishSession cfg c.finish _ s o _

theorem conforms_handleDelegatedAdminPost (cfg : Config) (c : DelegatedCalls) (req : Request)
    (form : DelegatedAdminRequest) :
    Conforms (Move adbase) anyEnd (handleDelegatedAdminPost cfg c req form) .idle := by
  refine conforms_apart (steps_deref _) (Prog.returns_any _) (fun host _ => ?_) (fun _ => trivial)
  refine conforms_apart (steps_deref _) (Prog.returns_any _) (fun displayName _ => ?_)
    (fun _ => trivial)
  refine conforms_withAccount (onlyTokens_delegatedGates c req form _) (fun u => ?_)
  refine conforms_opened (fun s => ?_)
  refine conforms_apart (quiet_delegatedGroups apart_quiet cfg c _ _ _ u _) (Prog.returns_any _)
    (fun r _ => ?_) (fun _ => trivial)
  cases r with
  | inl page => trivial
  | inr o => exact conforms_finishSession cfg c.finish _ s o _

theorem conforms_handleReconnectPost (cfg : Config) (c : ReconnectCalls) (req : Request)
    (form : ReconnectRequest) :
    Conforms (Move adbase) anyEnd (handleReconnectPost cfg c req form) .idle := by
  refine conforms_gated (onlyTokens_reconnectGates c req form) (fun _ => rfl) ?_
  refine conforms_apart ((reads_getAvailableSessions _ _ _).steps apart_refl) (Prog.returns_any _)
    (fun psa _ => ?_) (fun _ => trivial)
  cases chooseSession req.authUser form.targetFQDN psa with
  | none => trivial
  | some s =>
    refine conforms_bind (conforms_getVncPortNumber c.port s) (fun port ph hph => ?_)
      (fun _ _ _ => trivial)
    obtain rfl : ph = .holding port := hph port rfl
    refine conforms_apart (quiet_setRandomADPassword apart_quiet _ _ _) (Prog.returns_any _)
      (fun u _ => ?_) (fun _ => trivial)
    exact conforms_apart (steps_writeSessionToDB apart_quiet.logs (apart_permits _) _ _)
      (Prog.returns_any _) (fun _ _ => conforms_launch cfg c.launch _ _ _) (fun _ => trivial)

/-! ## The cleanup script -/

theorem conforms_command {f : World → World} {g : Unit → Run Unit} {ph ph' : Phase}
    {Q : Except Exn Unit → Phase → Prop} (move : ∀ w, Move adbase ph w (f w) ph')
    (rest : Conforms (Move adbase) Q (g ()) ph') :
    Conforms (Move adbase) Q (command f >>= g) ph :=
  fun w => ⟨ph', move w, rest⟩

theorem apart_auditLine (event : String) (c : Container) (w : World) :
    Apart w (auditLine event c w) :=
  ⟨rfl, rfl, rfl, [], by simp [auditLine], by simp⟩

theorem apart_endAdmins (now : Int) (c : Container) (w : World) : Apart w (endAdmins now c w) :=
  ⟨rfl, rfl, rfl, [], by simp [endAdmins], by simp⟩

/-- Both branches give the port back once; only then is the container removed. -/
theorem conforms_script (calls : ScriptCalls) (c : Container) (rest : List Container) :
    Conforms (Move adbase) (fun r ph => r = .ok () → ph = .sweeping rest false)
      (script adbase calls c) (.sweeping (c :: rest) false) := by
  have branch : ∀ p : Run Unit,
      Conforms (Move adbase) (fun r ph => r = .ok () → ph = .sweeping (c :: rest) true) p
        (.sweeping (c :: rest) false) →
      Conforms (Move adbase) (fun r ph => r = .ok () → ph = .sweeping rest false)
        (p >>= fun _ => command (removeContainer c)) (.sweeping (c :: rest) false) := by
    intro p hp
    refine conforms_bind hp (fun _ ph hph => ?_) ?_
    · obtain rfl : ph = .sweeping (c :: rest) true := hph rfl
      exact fun w => ⟨_, .remove, fun _ => rfl⟩
    · intro e ph _ h
      cases h
  have logout : Conforms (Move adbase) (fun r ph => r = .ok () → ph = .sweeping (c :: rest) true)
      (logoutBranch adbase calls.now c) (.sweeping (c :: rest) false) := by
    refine conforms_command (fun w => .apart (apart_auditLine _ c w)) ?_
    refine conforms_command (fun w => .clean (.inl rfl)) ?_
    refine conforms_command (fun w => .release) ?_
    refine conforms_command (fun w => .clean (.inr (.inr rfl))) ?_
    exact fun w => ⟨_, .apart (apart_endAdmins calls.now c w), fun _ => rfl⟩
  have disconnect : Conforms (Move adbase)
      (fun r ph => r = .ok () → ph = .sweeping (c :: rest) true)
      (disconnectBranch c) (.sweeping (c :: rest) false) := by
    refine conforms_command (fun w => .apart (apart_auditLine _ c w)) ?_
    refine conforms_command (fun w => .clean (.inr (.inl rfl))) ?_
    exact fun w => ⟨_, .release, fun _ => rfl⟩
  -- What the script reads only decides between the branches.
  refine conforms_apart (Prog.steps_atom apart_refl) (Prog.returns_any _) (fun recorded _ => ?_)
    (by simp)
  refine conforms_apart ((reads_reconnected _ c.winuser).steps apart_refl) (Prog.returns_any _)
    (fun shown _ => ?_) (by simp)
  dsimp only
  cases isLogout (if shown then some 3 else recorded.or (calls.left c.id)) with
  | true => exact branch _ logout
  | false => exact branch _ disconnect

theorem conforms_cleanup (calls : ScriptCalls) :
    Conforms (Move adbase) anyEnd (cleanup adbase calls) .idle := by
  have scripts : ∀ todo, Conforms (Move adbase) anyEnd (todo.forM (script adbase calls))
      (.sweeping todo false) := by
    intro todo
    induction todo with
    | nil => trivial
    | cons c rest ih =>
      refine conforms_bind (conforms_script calls c rest) ?_ (fun _ _ _ => trivial)
      intro _ ph hph
      obtain rfl : ph = .sweeping rest false := hph rfl
      exact ih
  exact fun w => ⟨_, .snapshot (perm_stopped calls w), scripts _⟩

theorem conforms_spawned {cfg : Config} {p : Run Unit} (h : Spawned cfg adbase p) :
    Conforms (Move adbase) anyEnd p .idle := by
  cases h with
  | user c req form => exact conforms_served (conforms_handleUserSessionPost cfg c req form)
  | static c req form => exact conforms_served (conforms_handleStaticSessionPost cfg c req form)
  | domain c req form => exact conforms_served (conforms_handleDomainAdminPost cfg c req form)
  | delegated c req form =>
    exact conforms_served (conforms_handleDelegatedAdminPost cfg c req form)
  | reconnect c req form => exact conforms_served (conforms_handleReconnectPost cfg c req form)
  | cleanup calls => exact conforms_cleanup calls

/-! ## The containers docker-gen has listed -/

/-- What a container keeps from `docker create` to `docker rm`. -/
structure Identity where
  id : Nat
  display : Nat
  winuser : String

def identity (c : Container) : Identity := ⟨c.id, c.display, c.winuser⟩

def identities (e : Engine) : List Identity := e.containers.map identity

theorem identities_change {e : Engine} {id : Nat} {f : Container → Container}
    {same : ∀ c, (f c).id = c.id} (kept : ∀ c, identity (f c) = identity c) :
    identities (e.change id f same) = identities e := by
  change (e.containers.map (fun c => if c.id == id then f c else c)).map identity = _
  rw [List.map_map]
  refine List.map_congr_left (fun c _ => ?_)
  simp only [Function.comp]
  split
  · exact kept c
  · rfl

@[simp] theorem identities_setStatus (e : Engine) (id : Nat) (status : ContainerStatus) :
    identities (e.setStatus id status) = identities e :=
  identities_change (fun _ => rfl)

@[simp] theorem identities_launch (e : Engine) (id : Nat) : identities (e.launch id) = identities e :=
  identities_change (fun _ => rfl)

theorem identities_create (e : Engine) (make : Nat → Container) :
    identities (e.create make) = identities e ++
      [⟨e.nextId, (make e.nextId).display, (make e.nextId).winuser⟩] := by
  simp [identities, Engine.create, identity]

theorem identities_remove (e : Engine) (id : Nat) :
    identities (e.remove id) = deleteWhere (fun x => x.id == id) (identities e) := by
  change _ = (e.containers.map identity).filter (fun x => !(x.id == id))
  rw [List.filter_map]
  rfl

theorem mem_identities {e : Engine} {c : Container} (hc : c ∈ e.containers) :
    identity c ∈ identities e :=
  List.mem_map_of_mem hc

/-- The scripts a program has still to finish. -/
def Phase.todo : Phase → List Container
  | .sweeping todo _ => todo
  | _ => []

def newScripts (w w' : World) : List Nat := w'.scripts.drop w.scripts.length

/-- Every listed container exists, its script is pending, and it is listed once. -/
structure Listing (w : World) (phs : List Phase) : Prop where
  once : ((phs.flatMap Phase.todo).map Container.id).Nodup
  pending : ∀ c ∈ phs.flatMap Phase.todo, c.id ∈ w.scripts
  present : ∀ c ∈ phs.flatMap Phase.todo, identity c ∈ identities w.engine

theorem listing_start {w : World} : Listing w [] := ⟨by simp, by simp, by simp⟩

theorem Listing.congr {w w' : World} {phs phs' : List Phase} (h : Listing w phs)
    (engine : ∀ x ∈ identities w.engine, x ∈ identities w'.engine) (scripts : w'.scripts = w.scripts)
    (todo : phs'.flatMap Phase.todo = phs.flatMap Phase.todo) : Listing w' phs' := by
  constructor
  · rw [todo]
    exact h.once
  · rw [todo, scripts]
    exact h.pending
  · rw [todo]
    exact fun c hc => engine _ (h.present c hc)

theorem listing_arrive {w : World} {phs : List Phase} (h : Listing w phs) :
    Listing w (phs ++ [.idle]) :=
  h.congr (fun _ hx => hx) rfl (by simp [Phase.todo])

theorem listing_docker {w w' : World} {phs : List Phase} (h : Listing w phs) (moved : Docker w w') :
    Listing w' phs := by
  cases moved with
  | launch up => exact h.congr (by simp) rfl rfl
  | exit up retval => exact h.congr (by simp) rfl rfl

/-- A rendering lists every stopped container, none of which was listed before. -/
theorem listing_snapshot {w : World} {before after : List Phase} {stopped : List Container}
    (h : Listing w (before ++ .idle :: after))
    (all : stopped.Perm (w.engine.containers.filter (fun c => c.status ≠ .running)))
    (new : ∀ c ∈ stopped, c.id ∉ w.scripts) :
    Listing { w with scripts := w.scripts ++ stopped.map Container.id }
      (before ++ .sweeping stopped false :: after) := by
  have once := h.once
  have pending := h.pending
  have present := h.present
  simp only [List.flatMap_append, List.flatMap_cons, Phase.todo, List.nil_append]
    at once pending present
  have listed : (before ++ Phase.sweeping stopped false :: after).flatMap Phase.todo =
      before.flatMap Phase.todo ++ (stopped ++ after.flatMap Phase.todo) := by
    simp [Phase.todo]
  have order := List.perm_append_comm_assoc (before.flatMap Phase.todo) stopped
    (after.flatMap Phase.todo)
  have member : ∀ c, c ∈ (before ++ Phase.sweeping stopped false :: after).flatMap Phase.todo →
      c ∈ stopped ∨ c ∈ before.flatMap Phase.todo ++ after.flatMap Phase.todo := by
    intro c hc
    rw [listed] at hc
    exact List.mem_append.mp (order.mem_iff.mp hc)
  constructor
  · rw [listed, (order.map Container.id).nodup_iff, List.map_append, List.nodup_append]
    refine ⟨?_, once, ?_⟩
    · rw [(all.map Container.id).nodup_iff]
      exact w.engine.distinct.sublist (List.Sublist.map _ List.filter_sublist)
    · intro i hi j hj
      obtain ⟨c, hc, rfl⟩ := List.mem_map.mp hi
      obtain ⟨d, hd, rfl⟩ := List.mem_map.mp hj
      intro same
      exact new c hc (same ▸ pending d hd)
  · intro c hc
    rcases member c hc with hc | hc
    · exact List.mem_append_right _ (List.mem_map_of_mem hc)
    · exact List.mem_append_left _ (pending c hc)
  · intro c hc
    rcases member c hc with hc | hc
    · exact mem_identities (List.mem_filter.mp (all.subset hc)).1
    · exact present c hc

/-- A removed container is listed nowhere else. -/
theorem listing_remove {w : World} {before after : List Phase} {c : Container}
    {rest : List Container} (h : Listing w (before ++ .sweeping (c :: rest) true :: after)) :
    Listing (removeContainer c w) (before ++ .sweeping rest false :: after) := by
  have once := h.once
  have pending := h.pending
  have present := h.present
  simp only [List.flatMap_append, List.flatMap_cons, Phase.todo, List.cons_append]
    at once pending present
  rw [List.map_append, List.map_cons, List.nodup_middle, List.nodup_cons, ← List.map_append] at once
  have listed : (before ++ Phase.sweeping rest false :: after).flatMap Phase.todo =
      before.flatMap Phase.todo ++ (rest ++ after.flatMap Phase.todo) := by
    simp [Phase.todo]
  have other : ∀ d, d ∈ before.flatMap Phase.todo ++ (rest ++ after.flatMap Phase.todo) →
      d.id ≠ c.id ∧ d ∈ before.flatMap Phase.todo ++ c :: (rest ++ after.flatMap Phase.todo) := by
    intro d hd
    constructor
    · intro same
      exact once.1 (same ▸ List.mem_map_of_mem hd)
    · rw [List.mem_append, List.mem_cons]
      rw [List.mem_append] at hd
      tauto
  constructor
  · rw [listed]
    exact once.2
  · rw [listed]
    intro d hd
    obtain ⟨differ, hd⟩ := other d hd
    exact (List.mem_erase_of_ne differ).mpr (pending d hd)
  · rw [listed]
    intro d hd
    obtain ⟨differ, hd⟩ := other d hd
    have kept := present d hd
    rw [removeContainer]
    split
    · exact kept
    · rw [identities_remove]
      exact mem_deleteWhere.mpr ⟨kept, by simpa [identity] using differ⟩

theorem listing_move {w w' : World} {before after : List Phase} {ph ph' : Phase}
    (h : Listing w (before ++ ph :: after)) (move : Move adbase ph w w' ph')
    (unlisted : ∀ id ∈ newScripts w w', id ∉ w.scripts) : Listing w' (before ++ ph' :: after) := by
  cases move with
  | apart same =>
    refine h.congr ?_ same.scripts rfl
    rw [same.engine]
    exact fun _ hx => hx
  | choose => exact h.congr (fun _ hx => hx) rfl (by simp [Phase.todo])
  | probe => exact h.congr (fun _ hx => hx) rfl (by simp [Phase.todo])
  | reserve => exact h.congr (fun _ hx => hx) rfl (by simp [Phase.todo])
  | create =>
    refine h.congr (fun x hx => ?_) rfl (by simp [Phase.todo])
    rw [identities_create]
    exact List.mem_append_left _ hx
  | start => exact h.congr (by simp) rfl (by simp [Phase.todo])
  | clean cleans =>
    rcases cleans with rfl | rfl | rfl <;> exact h.congr (fun _ hx => hx) rfl rfl
  | release => exact h.congr (fun _ hx => hx) rfl (by simp [Phase.todo])
  | @snapshot _ stopped all =>
    apply listing_snapshot h all
    intro c hc
    apply unlisted c.id
    simp only [newScripts, List.drop_left]
    exact List.mem_map_of_mem hc
  | remove => exact listing_remove h

end Lifecycle
