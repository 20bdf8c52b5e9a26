import Proconsul.SessionRows

/-!
# The password a container starts with

A request for a static or a stored session gives the account a new password, a
request for a new session creates the account with one. The request remembers
the password while it takes a port and writes the session, and hands it to the
container it creates and then starts. Nothing keeps another request for the
same account from setting a password in between.

The directory is one store: a change sent to several controllers is several
changes of it. Cleanup, checkouts and the two administrator handlers do not
take part in the runs considered here. A name without an account has no
password that could differ.
-/

namespace HeldPasswords

open Program Schema Text Surroundings Hosts Accounts Sessions Handlers Interleaving
open Lifecycle (Docker served conforms_gates)
open SessionRows (staticSite staticForm staticCalls)

/-! ## Names and passwords -/

/-- Every account of that name has this password. -/
def Holds (w : World) (user pass : String) : Prop :=
  ∀ a ∈ w.ad.accounts, nameEq a.sam user = true → a.password = some pass

instance (w : World) (user pass : String) : Decidable (Holds w user pass) :=
  inferInstanceAs (Decidable (∀ a ∈ w.ad.accounts, _ → _))

/-- A name stands for one DN, as the directory has it for sAMAccountName. -/
def OneDn (w : World) : Prop :=
  ∀ p ∈ names w.ad, ∀ q ∈ names w.ad, nameEq p.1 q.1 = true → dnEq p.2 q.2 = true

instance (w : World) : Decidable (OneDn w) :=
  inferInstanceAs (Decidable (∀ p ∈ names w.ad, ∀ q ∈ names w.ad, _ → _))

/-- The accounts of that name have this DN. -/
def Placed (user dn : String) (w : World) : Prop :=
  ∀ p ∈ names w.ad, nameEq p.1 user = true → dnEq p.2 dn = true

/-- Name, DN and password of every account. -/
def credentials (w : World) : List ((String × String) × Option String) :=
  w.ad.accounts.map (fun a => ((a.sam, a.dn), a.password))

def SameCredentials (w w' : World) : Prop := credentials w' = credentials w

theorem SameCredentials.names {w w' : World} (same : SameCredentials w w') :
    names w'.ad = names w.ad := by
  have project : ∀ v : World, Accounts.names v.ad = (credentials v).map Prod.fst := by
    intro v
    simp [Accounts.names, credentials]
  rw [project, project, same]

theorem SameCredentials.holds {w w' : World} (same : SameCredentials w w') {user pass : String}
    (h : Holds w user pass) : Holds w' user pass := by
  intro a ha named
  have listed : ((a.sam, a.dn), a.password) ∈ credentials w := by
    rw [← same]
    exact List.mem_map_of_mem ha
  obtain ⟨b, hb, eq⟩ := List.mem_map.mp listed
  simp only [Prod.mk.injEq] at eq
  obtain ⟨⟨sam, -⟩, password⟩ := eq
  rw [← password]
  rw [← sam] at named
  exact h b hb named

theorem dnEq_accountDn (cfg : Config) {a b : String} (h : nameEq a b = true) :
    dnEq (accountDn cfg a) (accountDn cfg b) = true := by
  refine beq_iff_eq.mpr (dnKey_congr ?_)
  rw [accountDn, accountDn]
  simp only [foldCase_append, beq_iff_eq.mp h]

/-! ## Containers -/

/-- Containers stay, with the account and the password they were created with. -/
def KeepsContainers (w w' : World) : Prop :=
  ∀ id c, w.engine.find id = some c →
    ∃ c', w'.engine.find id = some c' ∧ c'.winuser = c.winuser ∧ c'.winpass = c.winpass

theorem keeps_of_mem {w w' : World} (member : ∀ c ∈ w.engine.containers,
      ∃ c' ∈ w'.engine.containers, c'.id = c.id ∧ c'.winuser = c.winuser ∧ c'.winpass = c.winpass) :
    KeepsContainers w w' := by
  intro id c found
  have here : c.id = id := by simpa using List.find?_some found
  obtain ⟨c', hc', same, env⟩ := member c (List.mem_of_find?_eq_some found)
  refine ⟨c', ?_, env⟩
  rw [← here, ← same]
  exact Engine.find_of_mem hc'

theorem keeps_of_same {w w' : World} (same : w'.engine = w.engine) : KeepsContainers w w' := by
  intro id c found
  refine ⟨c, ?_, rfl, rfl⟩
  rw [same]
  exact found

theorem keeps_create {w w' : World} {make : Nat → Container}
    (created : w'.engine = w.engine.create make) : KeepsContainers w w' := by
  apply keeps_of_mem
  intro c hc
  refine ⟨c, ?_, rfl, rfl, rfl⟩
  rw [created]
  exact List.mem_append_left _ hc

theorem keeps_change {w w' : World} {id : Nat} {f : Container → Container}
    (same : ∀ c, (f c).id = c.id) (env : ∀ c, (f c).winuser = c.winuser ∧ (f c).winpass = c.winpass)
    (changed : w'.engine = w.engine.change id f same) : KeepsContainers w w' := by
  apply keeps_of_mem
  intro c hc
  refine ⟨if c.id == id then f c else c, ?_, ?_⟩
  · rw [changed]
    exact List.mem_map_of_mem hc
  · by_cases chosen : (c.id == id) = true
    · rw [if_pos chosen]
      exact ⟨same c, env c⟩
    · rw [if_neg chosen]
      exact ⟨rfl, rfl, rfl⟩

theorem keeps_setStatus {w w' : World} {id : Nat} {status : ContainerStatus}
    (changed : w'.engine = w.engine.setStatus id status) : KeepsContainers w w' :=
  keeps_change (f := fun c => { c with status := status }) (fun _ => rfl) (fun _ => ⟨rfl, rfl⟩) changed

theorem keeps_launch {w w' : World} {id : Nat} (changed : w'.engine = w.engine.launch id) :
    KeepsContainers w w' :=
  keeps_change (f := fun c => { c with launched := true }) (fun _ => rfl) (fun _ => ⟨rfl, rfl⟩) changed

/-! ## Phases and moves -/

/-- Neither a name, a DN or a password changes, nor is a container started. -/
structure Aside (w w' : World) : Prop where
  credentials : SameCredentials w w'
  containers : KeepsContainers w w'
  log : ∃ effects, w'.trace = w.trace ++ effects ∧ ∀ c, .containerStarted c ∉ effects

/-- How far a request has come: `setting` with the DN whose password it is about to set, `holding`
with the password it has set, `starting` between `docker create` and `docker start`. -/
inductive Phase where
  | fresh
  | setting (user dn pass : String)
  | holding (user pass : String)
  | starting (id : Nat) (user pass : String)
  | finished

/-- Not right before a start. -/
def Phase.atRest : Phase → Bool
  | .starting _ _ _ => false
  | _ => true

/-- What `docker start` does where it does not raise. -/
def started (id : Nat) (w : World) : World :=
  match w.engine.find id with
  | none => w
  | some c => { w with
      engine := w.engine.setStatus id .running
      trace := w.trace ++ [.containerStarted { c with status := .running }] }

/-- A controller takes the new password. -/
def reset (dn pass : String) (w : World) : World :=
  { w with ad := { w.ad with
      accounts := updateWhere (fun a => dnEq a.dn dn) (fun a => { a with password := some pass })
        w.ad.accounts } }

def added (a : Account) (w : World) : World :=
  { w with
    ad := { w.ad with accounts := w.ad.accounts ++ [a] }
    trace := w.trace ++ [.accountCreated a.sam] }

def created (make : Nat → Container) (w : World) : World :=
  { w with
    engine := w.engine.create make
    trace := w.trace ++ [.containerCreated w.engine.nextId] }

inductive Move (cfg : Config) : Phase → World → World → Phase → Prop where
  | aside {ph : Phase} {w w' : World} (rest : ph.atRest = true) (h : Aside w w') :
      Move cfg ph w w' ph
  | name {w : World} {sam pass : String} (free : ∀ p ∈ names w.ad, nameEq p.1 sam = false) :
      Move cfg .fresh w w (.setting sam (accountDn cfg sam) pass)
  | find {w : World} {sam : Option String} {dn pass : String}
      (found : (accountDns w.ad sam).head? = some dn) :
      Move cfg .fresh w w (.setting (javaString sam) dn pass)
  | miss {w : World} {sam : Option String} {pass : String}
      (missing : (accountDns w.ad sam).head? = none) :
      Move cfg .fresh w w (.holding (javaString sam) pass)
  | add {w : World} {a : Account} {pass : String} (dn : a.dn = accountDn cfg a.sam)
      (drawn : plainName a.sam = true) :
      Move cfg (.setting a.sam (accountDn cfg a.sam) pass) w (added a w)
        (.setting a.sam (accountDn cfg a.sam) pass)
  | again {w : World} (user dn pass : String) :
      Move cfg (.setting user dn pass) w (reset dn pass w) (.setting user dn pass)
  | set {w : World} {user dn pass : String} :
      Move cfg (.setting user dn pass) w (reset dn pass w) (.holding user pass)
  | create {w : World} (make : Nat → Container) {user pass : String}
      (env : (make w.engine.nextId).winuser = user ∧ (make w.engine.nextId).winpass = pass) :
      Move cfg (.holding user pass) w (created make w) (.starting w.engine.nextId user pass)
  | start {w : World} {id : Nat} {user pass : String} :
      Move cfg (.starting id user pass) w (started id w) .finished

/-! ## What a phase relies on -/

variable {cfg : Config}

/-- No request creates an account of the name elsewhere: accounts of the name are created there, or
there is one already, or the name is none that is drawn. -/
def Settled (cfg : Config) (user dn : String) (w : World) : Prop :=
  dn = accountDn cfg user ∨ (∃ p ∈ names w.ad, nameEq p.1 user = true) ∨ plainName user = false

/-- What a request relies on. The DN whose password it is about to set is that of all accounts of
the name, and stays so. -/
def Relies (cfg : Config) : Phase → World → Prop
  | .fresh, _ => True
  | .setting user dn _, w => Placed user dn w ∧ Settled cfg user dn w
  | .holding user pass, w => Holds w user pass
  | .starting id user pass, w =>
    Holds w user pass ∧ ∃ c, w.engine.find id = some c ∧ c.winuser = user ∧ c.winpass = pass
  | .finished, _ => True

/-- What every step does to names and containers: accounts stay, new ones have a drawn name and are
where they are created, and a name still stands for one DN. -/
structure Evolves (cfg : Config) (w w' : World) : Prop where
  kept : ∀ p ∈ names w.ad, p ∈ names w'.ad
  origin : ∀ p ∈ names w'.ad, p ∈ names w.ad ∨ (p.2 = accountDn cfg p.1 ∧ plainName p.1 = true)
  unique : OneDn w'
  containers : KeepsContainers w w'

theorem evolves_of_names {w w' : World} (unique : OneDn w) (same : names w'.ad = names w.ad)
    (containers : KeepsContainers w w') : Evolves cfg w w' := by
  constructor
  · intro p hp
    rw [same]
    exact hp
  · intro p hp
    rw [same] at hp
    exact .inl hp
  · rw [OneDn, same]
    exact unique
  · exact containers

theorem names_reset (dn pass : String) (w : World) : names (reset dn pass w).ad = names w.ad :=
  names_updateWhere w.ad (fun _ => ⟨rfl, rfl⟩)

theorem names_added (a : Account) (w : World) :
    names (added a w).ad = names w.ad ++ [(a.sam, a.dn)] := by
  simp [names, added]

theorem holds_reset {user dn : String} {w : World} (placed : Placed user dn w) (pass : String) :
    Holds (reset dn pass w) user pass := by
  intro a ha named
  obtain ⟨b, hb, rfl⟩ := List.mem_map.mp ha
  by_cases there : dnEq b.dn dn = true
  · rw [if_pos there]
  · rw [if_neg there] at named
    have listed : (b.sam, b.dn) ∈ names w.ad := List.mem_map_of_mem hb
    exact absurd (placed _ listed named) there

theorem evolves_added {w : World} {a : Account} (unique : OneDn w)
    (placed : Placed a.sam (accountDn cfg a.sam) w) (dn : a.dn = accountDn cfg a.sam)
    (drawn : plainName a.sam = true) : Evolves cfg w (added a w) := by
  have listed : ∀ {p}, p ∈ names (added a w).ad ↔ p ∈ names w.ad ∨ p = (a.sam, a.dn) := by
    intro p
    rw [names_added, List.mem_append, List.mem_singleton]
  constructor
  · intro p hp
    exact listed.mpr (.inl hp)
  · intro p hp
    rcases listed.mp hp with old | rfl
    · exact .inl old
    · exact .inr ⟨dn, drawn⟩
  · intro p hp q hq same
    rcases listed.mp hp with oldP | rfl
    · rcases listed.mp hq with oldQ | rfl
      · exact unique p oldP q oldQ same
      · have there := placed p oldP same
        rwa [← dn] at there
    · rcases listed.mp hq with oldQ | rfl
      · have there := placed q oldQ (nameEq_symm same)
        rw [← dn] at there
        exact dnEq_symm there
      · exact dnEq_refl _
  · exact keeps_of_same rfl

theorem placed_evolves {user dn : String} {w w' : World} (evolves : Evolves cfg w w')
    (placed : Placed user dn w) (settled : Settled cfg user dn w) : Placed user dn w' := by
  intro p hp named
  rcases evolves.origin p hp with old | ⟨new, drawn⟩
  · exact placed p old named
  · rcases settled with rfl | ⟨q, hq, namedQ⟩ | undrawn
    · rw [new]
      exact dnEq_accountDn cfg named
    · have same : dnEq p.2 q.2 = true :=
        evolves.unique p hp q (evolves.kept q hq) (nameEq_trans named (nameEq_symm namedQ))
      exact dnEq_trans same (placed q hq namedQ)
    · rw [plainName_congr named, undrawn] at drawn
      cases drawn

theorem settled_evolves {user dn : String} {w w' : World} (evolves : Evolves cfg w w')
    (settled : Settled cfg user dn w) : Settled cfg user dn w' := by
  rcases settled with rfl | ⟨q, hq, named⟩ | undrawn
  · exact .inl rfl
  · exact .inr (.inl ⟨q, evolves.kept q hq, named⟩)
  · exact .inr (.inr undrawn)

/-- The search comes to the account of the name, if there is one. Where it comes to another, the
name is a pattern and no account can get it. -/
theorem accountDns_placed {w : World} {sam : Option String} {dn : String} (unique : OneDn w)
    (located : (accountDns w.ad sam).head? = some dn) :
    Placed (javaString sam) dn w ∧ Settled cfg (javaString sam) dn w := by
  rw [accountDns] at located
  cases exact : w.ad.accounts.filter (fun a => nameEq a.sam (javaString sam)) with
  | nil =>
    have nobody : ∀ a ∈ w.ad.accounts, nameEq a.sam (javaString sam) = false := by
      intro a ha
      simpa using List.filter_eq_nil_iff.mp exact a ha
    refine ⟨fun p hp named => ?_, .inr (.inr ?_)⟩
    · obtain ⟨a, ha, rfl⟩ := List.mem_map.mp hp
      rw [nobody a ha] at named
      cases named
    · by_contra plain
      rw [found_plain (Bool.not_eq_false _ ▸ plain), exact] at located
      cases located
  | cons a rest =>
    rw [found, exact] at located
    obtain rfl : a.dn = dn := Option.some.inj located
    have first : a ∈ w.ad.accounts.filter (fun a => nameEq a.sam (javaString sam)) :=
      exact ▸ List.mem_cons_self
    obtain ⟨mem, named⟩ := List.mem_filter.mp first
    have listed : (a.sam, a.dn) ∈ names w.ad := List.mem_map_of_mem mem
    refine ⟨fun p hp namedP => ?_, .inr (.inl ⟨(a.sam, a.dn), listed, named⟩)⟩
    exact unique p hp (a.sam, a.dn) listed (nameEq_trans namedP (nameEq_symm named))

theorem holds_missing {w : World} {sam : Option String} (missing : (accountDns w.ad sam).head? = none)
    (pass : String) : Holds w (javaString sam) pass := by
  intro a ha named
  have listed : a.dn ∈ accountDns w.ad sam :=
    List.mem_map_of_mem (mem_found.mpr ⟨ha, finds_of_nameEq named⟩)
  rw [List.head?_eq_none_iff.mp missing] at listed
  cases listed

theorem keeps_started (id : Nat) (w : World) : KeepsContainers w (started id w) := by
  unfold started
  split
  · exact keeps_of_same rfl
  · exact keeps_setStatus rfl

theorem ad_started (id : Nat) (w : World) : (started id w).ad = w.ad := by
  unfold started
  split <;> rfl

/-- One step of a request: its own phase stays true, and the directory and the engine evolve. -/
theorem relies_move {w w' : World} {ph ph' : Phase} (unique : OneDn w) (relies : Relies cfg ph w)
    (move : Move cfg ph w w' ph') : Relies cfg ph' w' ∧ Evolves cfg w w' := by
  cases move with
  | aside rest h =>
    have evolves : Evolves cfg w w' := evolves_of_names unique h.credentials.names h.containers
    refine ⟨?_, evolves⟩
    cases ph with
    | fresh => trivial
    | setting user dn pass =>
      exact ⟨placed_evolves evolves relies.1 relies.2, settled_evolves evolves relies.2⟩
    | holding user pass => exact h.credentials.holds relies
    | starting id user pass => cases rest
    | finished => trivial
  | name free =>
    refine ⟨⟨?_, .inl rfl⟩, evolves_of_names unique rfl (keeps_of_same rfl)⟩
    intro p hp named
    rw [free p hp] at named
    cases named
  | find found =>
    exact ⟨accountDns_placed unique found, evolves_of_names unique rfl (keeps_of_same rfl)⟩
  | miss missing =>
    exact ⟨holds_missing missing _, evolves_of_names unique rfl (keeps_of_same rfl)⟩
  | add dn drawn =>
    have evolves := evolves_added unique relies.1 dn drawn
    exact ⟨⟨placed_evolves evolves relies.1 relies.2, .inl rfl⟩, evolves⟩
  | again user dn pass =>
    have evolves : Evolves cfg w (reset dn pass w) :=
      evolves_of_names unique (names_reset dn pass w) (keeps_of_same rfl)
    exact ⟨⟨placed_evolves evolves relies.1 relies.2, settled_evolves evolves relies.2⟩, evolves⟩
  | set =>
    exact ⟨holds_reset relies.1 _, evolves_of_names unique (names_reset _ _ w) (keeps_of_same rfl)⟩
  | create make env =>
    refine ⟨⟨relies, _, Engine.find_create _ _, env.1, env.2⟩, ?_⟩
    exact evolves_of_names unique rfl (keeps_create rfl)
  | start =>
    refine ⟨trivial, evolves_of_names unique ?_ (keeps_started _ w)⟩
    rw [ad_started]

theorem docker_evolves {w w' : World} (unique : OneDn w) (moved : Docker w w') :
    Evolves cfg w w' := by
  cases moved with
  | launch up => exact evolves_of_names unique rfl (keeps_launch rfl)
  | exit up retval => exact evolves_of_names unique rfl (keeps_setStatus rfl)

/-! ## Steps aside -/

theorem aside_of_same {w w' : World} (same : SameCredentials w w') (engine : w'.engine = w.engine)
    {effects : List Effect} (trace : w'.trace = w.trace ++ effects)
    (other : ∀ c, .containerStarted c ∉ effects) : Aside w w' :=
  ⟨same, keeps_of_same engine, effects, trace, other⟩

theorem aside_refl (w : World) : Aside w w :=
  aside_of_same rfl rfl (List.append_nil _).symm (by simp)

theorem aside_logs : Logs Aside where
  refl := aside_refl
  append w _ := aside_of_same rfl rfl (List.append_nil w.trace).symm (by simp)

theorem aside_permits (s : ProconsulSession) : Permits Aside s where
  insert _ := aside_of_same rfl rfl rfl (by simp)
  update _ := aside_of_same rfl rfl rfl (by simp)

theorem aside_tokens {w w' : World} (h : OnlyTokens w w') : Aside w w' := by
  obtain ⟨tokens, rfl⟩ := h
  exact aside_of_same rfl rfl (List.append_nil w.trace).symm (by simp)

theorem credentials_updateWhere {sel : Account → Bool} {f : Account → Account} {w w' : World}
    (changed : w'.ad.accounts = updateWhere sel f w.ad.accounts)
    (same : ∀ a, ((f a).sam, (f a).dn) = (a.sam, a.dn) ∧ (f a).password = a.password) :
    SameCredentials w w' := by
  rw [SameCredentials, credentials, credentials, changed]
  exact map_updateWhere (fun a => Prod.ext (same a).1 (same a).2) w.ad.accounts

theorem aside_addMember (fails : Bool) (sam userDn groupDN : String) :
    (modify fails (addMember sam userDn groupDN)).Steps Aside := by
  refine steps_modify aside_refl fails ?_
  intro w ad effects h
  rw [addMember] at h
  split at h
  · cases h
    exact aside_of_same (credentials_updateWhere rfl (fun _ => ⟨rfl, rfl⟩)) rfl rfl (by simp)
  · cases h

theorem aside_control (fails : Bool) (dn : String) :
    (modify fails (changeAccount dn (fun x => { x with userAccountControl := 512 }))).Steps Aside := by
  refine steps_modify aside_refl fails ?_
  intro w ad effects h
  rw [changeAccount] at h
  split at h
  · cases h
    exact aside_of_same (credentials_updateWhere rfl (fun _ => ⟨rfl, rfl⟩)) rfl rfl (by simp)
  · cases h

theorem aside_port (c : PortCalls) (s : ProconsulSession) : (getVncPortNumber c s).Steps Aside :=
  steps_getVncPortNumber aside_refl (fun _ _ => aside_of_same rfl rfl rfl (by simp)) c s

theorem aside_write (c : WriteCalls) (s : ProconsulSession) (addr : Option String) :
    (writeSessionToDB c s addr).Steps Aside :=
  steps_writeSessionToDB aside_logs (aside_permits s) c addr

theorem aside_openSession (c : OpenCalls) (s : ProconsulSession) (addr : Option String) :
    (openSession c s addr).Steps Aside :=
  Prog.steps_bind (aside_port c.port s)
    (fun _ => steps_recordSession aside_logs (fun s' _ => aside_permits s') addr)

theorem aside_userGroups (c : UserGroupCalls) (au : AuthUser) (target : Option String) (u : ADUser)
    (addr : Option String) : (userGroups cfg c au target u addr).Steps Aside :=
  Lifecycle.steps_userGroups aside_refl aside_addMember (steps_audit aside_logs) _ _ _ _ _ _

/-! ## Requests keep to the protocol -/

/-- However the request ends, it is not right before a start. -/
def Rests {α : Type} (_ : Except Exn α) (ph : Phase) : Prop := ph.atRest = true

/-- The phase of a request that is going to hand this account to a container. -/
def carrying (u : ADUser) : Phase :=
  .holding (javaString u.sAMAccountName) (javaString u.adPassword)

theorem move_aside {ph : Phase} (rest : ph.atRest = true) (w w' : World) (h : Aside w w') :
    Move cfg ph w w' ph := .aside rest h

theorem conforms_aside {α β : Type} {V : α → Prop} {p : Run α} {f : α → Run β} {ph : Phase}
    (rest : ph.atRest = true) (steps : p.Steps Aside) (returns : p.Returns V)
    (hf : ∀ a, V a → Conforms (Move cfg) Rests (f a) ph) :
    Conforms (Move cfg) Rests (p >>= f) ph :=
  conforms_bind_steps (move_aside rest) steps returns hf (fun _ => rest)

theorem conforms_aside_end {α : Type} {p : Run α} {ph : Phase} (rest : ph.atRest = true)
    (steps : p.Steps Aside) : Conforms (Move cfg) Rests p ph := by
  refine conforms_weaken (conforms_of_steps (move_aside rest) steps (Prog.returns_any p)) ?_
  rintro r ph' ⟨rfl, -⟩
  exact rest

/-! ### Containers -/

theorem aside_createContainer (fails : Bool) (make : Nat → Container) :
    (createContainer fails make).Steps Aside := by
  apply Prog.steps_atom
  intro w
  split
  · exact aside_refl w
  · exact ⟨rfl, keeps_create rfl, [.containerCreated w.engine.nextId], rfl, by simp⟩

theorem aside_refusedStart (id : Nat) : (startContainer true id).Steps Aside := by
  apply Prog.steps_atom
  intro w
  split
  · exact aside_refl w
  · exact ⟨rfl, keeps_setStatus rfl, [], (List.append_nil _).symm, by simp⟩

theorem conforms_startContainer (id : Nat) (user pass : String) :
    Conforms (Move cfg) Rests (startContainer false id) (.starting id user pass) := by
  refine conforms_atom (fun w => ?_)
  have same : ((startContainer false id).run w).2 = started id w := by
    rw [startContainer, Prog.run_atom, started]
    cases w.engine.find id <;> rfl
  have move : Move cfg (.starting id user pass) w ((startContainer false id).run w).2 .finished := by
    rw [same]
    exact .start
  exact ⟨.finished, move, rfl⟩

/-- The container is created with the account and the password of the session. -/
theorem conforms_start (c : ContainerCalls) (size : Image) (s : ProconsulSession) :
    Conforms (Move cfg) Rests (start cfg c size s) (carrying s.targetUser) := by
  rw [start]
  split
  · rfl
  · split
    · rfl
    · cases c.start with
      | true =>
        apply conforms_aside_end rfl
        exact Prog.steps_bind (aside_createContainer _ _) aside_refusedStart
      | false =>
        refine conforms_bind (Q := fun r ph => (∀ id, r = .ok id → ph = .starting id
          (javaString s.targetUser.sAMAccountName) (javaString s.targetUser.adPassword)) ∧
          ∀ e, r = .error e → ph.atRest = true) (conforms_atom (fun w => ?_)) ?_ ?_
        · split
          · exact ⟨_, .aside rfl (aside_refl w), by simp, fun _ _ => rfl⟩
          · have move : Move cfg (carrying s.targetUser) w
                (created (sessionContainer cfg size s) w) _ :=
              .create _ ⟨rfl, rfl⟩
            exact ⟨_, move, by simp, by simp⟩
        · intro id ph ended
          rw [ended.1 id rfl]
          exact conforms_startContainer id _ _
        · intro e ph ended
          exact ended.2 e rfl

theorem conforms_launch (c : LaunchCalls) (size : Image) (s : ProconsulSession) (addr : Option String) :
    Conforms (Move cfg) Rests (launch cfg c size s addr) (carrying s.targetUser) := by
  refine conforms_bind (conforms_start c.container size s) (fun _ ph rest => ?_) (fun _ _ rest => rest)
  apply conforms_aside_end rest
  refine Prog.steps_bind (aside_write _ _ _) (fun _ => Prog.steps_bind ?_ (fun _ => Prog.steps_pure _))
  rw [awaitReady]
  split
  · exact Prog.steps_pure _
  · exact Prog.steps_throwing _

theorem returns_openSession (c : OpenCalls) (s : ProconsulSession) (addr : Option String) :
    (openSession c s addr).Returns (fun s' => s'.targetUser = s.targetUser) := by
  refine Prog.returns_bind (Prog.returns_any _) (fun port _ => ?_)
  have gateway : ∀ t : ProconsulSession, (addGatewayToSession c.gateway t).Returns
      (fun s' => s'.targetUser = t.targetUser) := by
    intro t
    rw [addGatewayToSession]
    split
    · exact Prog.returns_pure rfl
    · exact Prog.returns_bind (Prog.returns_any _) (fun _ _ => Prog.returns_pure rfl)
  refine Prog.returns_bind (gateway _) (fun s' same => ?_)
  exact Prog.returns_bind (Prog.returns_any _) (fun _ _ => Prog.returns_pure same)

theorem conforms_openSession {c : OpenCalls} {s : ProconsulSession} {addr : Option String}
    {f : ProconsulSession → Run Page} (hf : ∀ s', s'.targetUser = s.targetUser →
      Conforms (Move cfg) Rests (f s') (carrying s.targetUser)) :
    Conforms (Move cfg) Rests (openSession c s addr >>= f) (carrying s.targetUser) :=
  conforms_aside rfl (aside_openSession c s addr) (returns_openSession c s addr) hf

/-! ### Passwords -/

/-- The calls that set a password succeed. -/
structure Answered (c : PasswordCalls) : Prop where
  find : c.find = false
  controller : ∀ i, c.controller i = false

theorem run_reset (dn pass : String) (w : World) :
    ((modify false (changeAccount dn (fun x => { x with password := some pass }))).run w).2 =
      reset dn pass w := by
  by_cases there : w.ad.accounts.any (fun a => dnEq a.dn dn) = true
  · have accepted : changeAccount dn (fun x => { x with password := some pass }) w.ad =
        some ((reset dn pass w).ad, []) := by
      rw [changeAccount, if_pos there]
      rfl
    rw [run_modify false accepted]
    simp [reset]
  · have refused : changeAccount dn (fun x => { x with password := some pass }) w.ad = none := by
      rw [changeAccount, if_neg there]
    have none : ∀ a ∈ w.ad.accounts, dnEq a.dn dn = false := by
      intro a ha
      rw [List.any_eq_true, not_exists] at there
      exact Bool.eq_false_iff.mpr (fun same => there a ⟨ha, same⟩)
    have unchanged : updateWhere (fun a => dnEq a.dn dn) (fun a => { a with password := some pass })
        w.ad.accounts = w.ad.accounts := updateWhere_eq_self none
    rw [run_modify_none false refused, reset, unchanged]

/-- The password is set on one controller after the other; with the last one it is held. -/
theorem conforms_setPassword {calls : Nat → Bool} (answered : ∀ i, calls i = false)
    (user dn pass : String) :
    Conforms (Move cfg) (endsIn (fun ph => ph = .holding user pass))
      (onControllers cfg (fun i => modify (calls i)
        (changeAccount dn (fun x => { x with password := some pass })))) (.setting user dn pass) := by
  let left (rest : List Nat) : Phase := if rest = [] then .holding user pass else .setting user dn pass
  have whole : left (List.range cfg.dcs) = .setting user dn pass := by
    have some_dcs := cfg.dcs_pos
    apply if_neg
    rw [List.range_eq_nil]
    omega
  rw [← whole]
  apply conforms_forM left
  · intro i _ rest
    have here : left (i :: rest) = .setting user dn pass := if_neg (by simp)
    rw [here]
    dsimp only
    rw [answered i]
    have one : Conforms (Move cfg) (fun _ ph => ph = left rest)
        (modify false (changeAccount dn (fun x => { x with password := some pass })))
        (.setting user dn pass) := by
      refine conforms_atom (fun w => ⟨left rest, ?_, rfl⟩)
      have moved : Move cfg (.setting user dn pass) w (reset dn pass w) (left rest) := by
        by_cases last : rest = []
        · rw [show left rest = .holding user pass from if_pos last]
          exact .set
        · rw [show left rest = .setting user dn pass from if_neg last]
          exact .again user dn pass
      rw [← run_reset dn pass w] at moved
      exact moved
    exact conforms_orElse one (fun _ _ ended => ended) (fun _ _ ended => ended)
  · exact if_pos rfl

/-- After the search for the DN. -/
def searched (c : PasswordCalls) (adu : ADUser) : Option String → Phase
  | none => carrying adu
  | some dn => .setting (javaString adu.sAMAccountName) dn c.password

theorem conforms_setRandomADPassword {c : PasswordCalls} (answered : Answered c) (adu : ADUser) :
    Conforms (Move cfg) (fun r ph => ∃ u, r = .ok u ∧ ph = carrying u)
      (setRandomADPassword cfg c adu) .fresh := by
  refine conforms_orElse (Q := fun r ph => ∃ u, r = .ok u ∧ ph = carrying u) ?_
    (fun _ _ ended => ended) ?_
  · refine conforms_bind (Q := fun r ph => ∃ dns : List String, r = .ok dns ∧
      ph = searched c adu dns.head?) (conforms_atom (fun w => ?_)) ?_ ?_
    · rw [answered.find]
      refine ⟨searched c adu (accountDns w.ad adu.sAMAccountName).head?, ?_, _, rfl, rfl⟩
      cases found : (accountDns w.ad adu.sAMAccountName).head? with
      | none => exact .miss found
      | some dn => exact .find found
    · rintro dns ph ⟨_, ⟨rfl⟩, rfl⟩
      cases dns.head? with
      | none => exact ⟨adu, rfl, rfl⟩
      | some dn =>
        refine conforms_bind_endsIn (conforms_setPassword answered.controller _ dn c.password) ?_
        rintro _ ph rfl
        exact ⟨_, rfl, rfl⟩
    · rintro e ph ⟨_, raised, -⟩
      cases raised
  · rintro e ph ⟨_, raised, -⟩
    cases raised

theorem conforms_getStaticADUser (fails : Bool) {c : PasswordCalls} (answered : Answered c)
    (au : AuthUser) (fqdn : Option String) :
    Conforms (Move cfg) (fun r ph => ∃ u, r = .ok u ∧ ph = carrying u)
      (getStaticADUser cfg fails c au fqdn) .fresh := by
  let mapping : Run (Option String) := Prog.orElse (query fails .staticHost
    ["targetuser", "eppn", "fqdn"] (fun db => (db.staticHost.filter (fun r => sqlEq r.eppn au.uid &&
      sqlEq r.fqdn fqdn)).getLast?.bind StaticHostRow.targetuser)) none
  have looked : Conforms (Move cfg) (endsIn (fun ph => ph = .fresh)) mapping .fresh := by
    have reads : (query fails .staticHost ["targetuser", "eppn", "fqdn"] (fun db =>
        (db.staticHost.filter (fun r => sqlEq r.eppn au.uid && sqlEq r.fqdn fqdn)).getLast?.bind
          StaticHostRow.targetuser)).Steps Aside := (reads_query _ _ _ _).steps aside_refl
    refine conforms_orElse (conforms_of_steps (move_aside rfl) reads (Prog.returns_any _)) ?_ ?_
    · rintro _ ph ⟨rfl, -⟩
      rfl
    · rintro _ ph ⟨rfl, -⟩
      rfl
  refine conforms_bind_endsIn looked ?_
  rintro userid ph rfl
  exact conforms_setRandomADPassword answered _

/-! ### New accounts -/

/-- A name was found that nobody has, or the search raised. -/
def named (cfg : Config) (pass : String) : Except Exn String → Phase → Prop
  | .ok sam, ph => ph = .setting sam (accountDn cfg sam) pass ∧ plainName sam = true
  | .error _, ph => ph = .fresh

/-- One candidate: is it free? -/
def tried (cfg : Config) (sam pass : String) : Except Exn Bool → Phase → Prop
  | .ok true, ph => ph = .setting sam (accountDn cfg sam) pass
  | .ok false, ph => ph = .fresh
  | .error _, ph => ph = .fresh

theorem conforms_isSamaccountnameAvailable (fails : Bool) (sam pass : String) :
    Conforms (Move cfg) (tried cfg sam pass) (isSamaccountnameAvailable fails sam) .fresh := by
  rw [isSamaccountnameAvailable]
  split
  · rfl
  · refine conforms_atom (fun w => ?_)
    cases fails with
    | true => exact ⟨.fresh, .aside rfl (aside_refl w), rfl⟩
    | false =>
      cases taken : w.ad.accounts.any (fun a => nameEq a.sam sam) with
      | true => exact ⟨.fresh, .aside rfl (aside_refl w), by simp [taken, tried]⟩
      | false =>
        have free : ∀ p ∈ names w.ad, nameEq p.1 sam = false := by
          intro p hp
          obtain ⟨a, ha, rfl⟩ := List.mem_map.mp hp
          exact Bool.eq_false_iff.mpr (List.any_eq_false.mp taken a ha)
        exact ⟨.setting sam (accountDn cfg sam) pass, .name free, by simp [taken, tried]⟩

theorem conforms_getRandomSamaccountname (c : CreateCalls) :
    Conforms (Move cfg) (named cfg c.password) (getRandomSamaccountname c) .fresh := by
  have names : ∀ tries i, Conforms (Move cfg) (named cfg c.password) (nextName c tries i) .fresh := by
    intro tries
    induction tries with
    | zero => exact fun i => rfl
    | succ tries ih =>
      intro i
      refine conforms_bind (conforms_isSamaccountnameAvailable (c.lookup i) (c.names i) c.password)
        ?_ ?_
      · intro free ph found
        cases free with
        | true => exact ⟨found, c.drawn i⟩
        | false =>
          obtain rfl : ph = .fresh := found
          exact ih (i + 1)
      · intro e ph raised
        exact raised
  exact names 10 0

theorem conforms_createOn {a : Account} (dn : a.dn = accountDn cfg a.sam)
    (drawn : plainName a.sam = true)
    (answers : ControllerAnswers) (userCreated : Bool) (pass : String) :
    Conforms (Move cfg) (endsIn (fun ph => ph = .setting a.sam (accountDn cfg a.sam) pass))
      (createOn a answers userCreated) (.setting a.sam (accountDn cfg a.sam) pass) := by
  have add : Conforms (Move cfg) (fun _ ph => ph = .setting a.sam (accountDn cfg a.sam) pass)
      (modify answers.create (addAccount a)) (.setting a.sam (accountDn cfg a.sam) pass) := by
    refine conforms_atom (fun w => ⟨_, ?_, rfl⟩)
    cases answers.create with
    | true => exact .aside rfl (aside_refl w)
    | false => exact .add dn drawn
  rw [createOn]
  split
  · have attempted : Conforms (Move cfg)
      (endsIn (fun ph => ph = .setting a.sam (accountDn cfg a.sam) pass))
        (Prog.attempt (modify answers.create (addAccount a)))
        (.setting a.sam (accountDn cfg a.sam) pass) :=
      conforms_attempt add (fun _ _ ended => ended) (fun _ _ ended => ended)
    refine conforms_bind_endsIn attempted ?_
    rintro (_ | _) ph rfl <;> rfl
  · rfl

/-- Creation ends with the object in hand, or without one. -/
def Opened (r : Except Exn (Option ADUser)) (ph : Phase) : Prop :=
  ph.atRest = true ∧ ∀ u, r = .ok (some u) → ph = carrying u

theorem conforms_createAdUser {c : CreateCalls}
    (answered : ∀ i, (c.controller i).password = false) (au : Option AuthUser) {sam : String}
    (drawn : plainName sam = true) : Conforms (Move cfg) Opened
      (createAdUser cfg c au { randomizedUser cfg c sam with created := false })
      (.setting sam (accountDn cfg sam) c.password) := by
  by_cases whole : sam = "" ∨ cfg.domain = ""
  · have refused : createAdUser cfg c au { randomizedUser cfg c sam with created := false } =
        pure none := by
      rcases whole with empty | empty <;> simp [createAdUser, randomizedUser, given, empty]
    rw [refused]
    exact ⟨rfl, by simp⟩
  · rw [not_or] at whole
    have named : given (randomizedUser cfg c sam).sAMAccountName = some sam := given_some whole.1
    have placed : given (randomizedUser cfg c sam).adDomain = some cfg.domain := given_some whole.2
    rw [createAdUser, named, placed]
    dsimp only
    refine conforms_bind_steps (move_aside rfl) ((reads_posixFor _ _).steps aside_refl)
      (Prog.returns_any _) (fun posix _ => ?_) (fun _ => ⟨rfl, by simp⟩)
    let a := newAccount { randomizedUser cfg c sam with created := false } sam posix
    have there : a.dn = accountDn cfg a.sam := rfl
    have creations : Conforms (Move cfg)
        (endsIn (fun ph => ph = .setting sam (accountDn cfg sam) c.password))
        ((List.range cfg.dcs).foldlM (fun created i => createOn a (c.controller i) created) false)
        (.setting sam (accountDn cfg sam) c.password) := by
      refine conforms_foldlM ?_ _ _ rfl
      rintro created i ph rfl
      exact conforms_createOn there drawn (c.controller i) created c.password
    refine conforms_bind_endsIn creations ?_
    rintro _ ph rfl
    refine conforms_bind_endsIn (conforms_setPassword answered sam (accountDn cfg sam) c.password) ?_
    rintro _ ph rfl
    refine conforms_bind_steps (move_aside rfl) (steps_onControllers cfg (fun i => aside_control _ _))
      (Prog.returns_any _) (fun _ _ => ?_) (fun _ => ⟨rfl, by simp⟩)
    have ended : Opened (.ok (some { randomizedUser cfg c sam with created := true }))
        (.holding sam c.password) := by
      refine ⟨rfl, ?_⟩
      rintro u ⟨⟩
      rfl
    cases au with
    | none =>
      exact conforms_bind_steps (move_aside rfl) (steps_audit aside_logs _ _ _ _ _ _ _)
        (Prog.returns_any _) (fun _ _ => ended) (fun _ => ⟨rfl, by simp⟩)
    | some au =>
      exact conforms_bind_steps (move_aside rfl) (steps_audit aside_logs _ _ _ _ _ _ _)
        (Prog.returns_any _) (fun _ _ => ended) (fun _ => ⟨rfl, by simp⟩)

theorem conforms_createRandomizedADUser {c : CreateCalls}
    (answered : ∀ i, (c.controller i).password = false) (au : Option AuthUser) :
    Conforms (Move cfg) Opened (createRandomizedADUser cfg c au) .fresh := by
  have looked : Conforms (Move cfg) (fun r ph => ph.atRest = true ∧ ∀ sam, r = .ok (some sam) →
      ph = .setting sam (accountDn cfg sam) c.password ∧ plainName sam = true)
      (Prog.attempt (getRandomSamaccountname c)) .fresh := by
    refine conforms_attempt (conforms_getRandomSamaccountname c) ?_ ?_
    · rintro sam ph ⟨rfl, drawn⟩
      refine ⟨rfl, ?_⟩
      rintro _ ⟨⟩
      exact ⟨rfl, drawn⟩
    · rintro e ph rfl
      exact ⟨rfl, by simp⟩
  refine conforms_bind looked ?_ ?_
  · rintro (_ | sam) ph ⟨rest, found⟩
    · exact ⟨rest, by simp⟩
    · obtain ⟨setting, drawn⟩ := found sam rfl
      rw [setting]
      exact conforms_createAdUser answered au drawn
  · rintro e ph ⟨rest, -⟩
    exact ⟨rest, by simp⟩

/-! ### The three handlers -/

theorem returns_userGroups (c : UserGroupCalls) (au : AuthUser) (target : Option String) (u : ADUser)
    (addr : Option String) : (userGroups cfg c au target u addr).Returns (SameUser u) := by
  have group : ∀ calls urn o, SameUser u o →
      (addGroupToADUser cfg calls urn o (some au) addr).Returns (SameUser u) := by
    rintro calls urn _ ⟨v, rfl, same⟩
    have grouped : SameUser u (some v) := ⟨v, rfl, same⟩
    exact (returns_addGroupToADUser cfg calls urn v _ _).mono (fun _ h => grouped.trans h)
  refine Prog.returns_bind (group _ _ _ (.refl u)) ?_
  rintro _ ⟨u₁, rfl, same₁⟩
  have grouped₁ : SameUser u (some u₁) := ⟨u₁, rfl, same₁⟩
  refine Prog.returns_bind (returns_addHostAccessGroup cfg _ u₁ _) (fun o₂ same₂ => ?_)
  refine Prog.returns_bind (Prog.returns_any _) (fun dns _ => ?_)
  refine Prog.returns_bind (Prog.returns_foldlM (fun o dn h => group _ _ o h) _
    (grouped₁.trans same₂)) ?_
  rintro _ ⟨u₃, rfl, same₃⟩
  have grouped₃ : SameUser u (some u₃) := ⟨u₃, rfl, same₃⟩
  exact (returns_addGatewayAccessGroup cfg _ u₃ _).mono (fun _ h => grouped₃.trans h)

theorem conforms_finishSession (c : FinishCalls) (size : Image) (s : ProconsulSession) {u : ADUser}
    {o : Option ADUser} (same : SameUser u o) (addr : Option String) :
    Conforms (Move cfg) Rests (finishSession cfg c size s o addr) (carrying u) := by
  obtain ⟨v, rfl, sam, password, -⟩ := same
  have carried : carrying u = carrying v := by
    rw [carrying, carrying, sam, password]
  rw [carried]
  refine conforms_aside rfl (steps_deref (some v)) (V := fun v' => v' = v) rfl ?_
  rintro _ rfl
  exact conforms_aside rfl (aside_write _ _ _) (Prog.returns_any _)
    (fun _ _ => conforms_launch c.launch size _ addr)

theorem conforms_gated {gs : List Gate} (tokens : ∀ g ∈ gs, g.Steps OnlyTokens)
    {f : Option Page → Run Page} (stopped : ∀ page, f (some page) = pure page)
    (passed : Conforms (Move cfg) Rests (f none) .fresh) :
    Conforms (Move cfg) Rests (inOrder gs >>= f) .fresh := by
  have neutral : ∀ w w', OnlyTokens w w' → Move cfg .fresh w w' .fresh :=
    fun _ _ only => .aside rfl (aside_tokens only)
  have ends : ∀ r : Except Exn Page, Rests r .fresh := fun _ => rfl
  exact conforms_gates neutral ends tokens stopped passed

theorem conforms_handleUserSessionPost {c : UserCalls}
    (answered : ∀ i, (c.create.controller i).password = false) (req : Request)
    (form : UserSessionRequest) :
    Conforms (Move cfg) Rests (handleUserSessionPost cfg c req form) .fresh := by
  refine conforms_gated (onlyTokens_userGates c req form) (fun _ => rfl) ?_
  refine conforms_bind (conforms_createRandomizedADUser answered _) ?_ (fun _ _ ended => ended.1)
  rintro (_ | u) ph ⟨rest, opened⟩
  · exact conforms_aside rest (steps_deref none) (V := fun _ => False) trivial (fun _ h => h.elim)
  · rw [opened u rfl]
    refine conforms_aside rfl (steps_deref (some u)) (V := fun v => v = u) rfl ?_
    rintro _ rfl
    refine conforms_aside rfl (steps_deref _) (Prog.returns_any _) (fun displayName _ => ?_)
    refine conforms_aside rfl (steps_deref _) (Prog.returns_any _) (fun target _ => ?_)
    refine conforms_openSession (fun s _ => ?_)
    refine conforms_aside rfl (aside_userGroups _ _ _ _ _) (returns_userGroups _ _ _ _ _) ?_
    intro o same
    exact conforms_finishSession c.finish _ s same _

theorem conforms_handleStaticSessionPost {c : StaticCalls} (answered : Answered c.password)
    (req : Request) (form : StaticUserSessionRequest) :
    Conforms (Move cfg) Rests (handleStaticSessionPost cfg c req form) .fresh := by
  refine conforms_gated (onlyTokens_staticGates c req form) (fun _ => rfl) ?_
  refine conforms_bind (conforms_getStaticADUser c.mapping answered req.authUser form.targetFQDN) ?_ ?_
  · rintro u ph ⟨_, ⟨rfl⟩, rfl⟩
    refine conforms_aside rfl (steps_deref _) (Prog.returns_any _) (fun displayName _ => ?_)
    refine conforms_aside rfl (steps_deref _) (Prog.returns_any _) (fun target _ => ?_)
    refine conforms_openSession (fun s same => ?_)
    rw [← same]
    exact conforms_launch c.launch _ s _
  · rintro e ph ⟨_, raised, -⟩
    cases raised

theorem conforms_handleReconnectPost {c : ReconnectCalls} (answered : Answered c.password)
    (req : Request) (form : ReconnectRequest) :
    Conforms (Move cfg) Rests (handleReconnectPost cfg c req form) .fresh := by
  refine conforms_gated (onlyTokens_reconnectGates c req form) (fun _ => rfl) ?_
  refine conforms_aside rfl ((reads_getAvailableSessions _ _ _).steps aside_refl) (Prog.returns_any _)
    (fun psa _ => ?_)
  cases chooseSession req.authUser form.targetFQDN psa with
  | none => rfl
  | some s =>
    refine conforms_aside rfl (aside_port c.port s) (Prog.returns_any _) (fun port _ => ?_)
    refine conforms_bind (conforms_setRandomADPassword answered _) ?_ ?_
    · rintro u ph ⟨_, ⟨rfl⟩, rfl⟩
      exact conforms_aside rfl (aside_write _ _ _) (Prog.returns_any _)
        (fun _ _ => conforms_launch c.launch _ _ _)
    · rintro e ph ⟨_, raised, -⟩
      cases raised

/-! ## Runs in which held passwords stay -/

/-- Requests whose directory calls that set a password succeed. -/
inductive Spawned (cfg : Config) : Run Unit → Prop where
  | user (c : UserCalls) (req : Request) (form : UserSessionRequest)
      (answered : ∀ i, (c.create.controller i).password = false) :
      Spawned cfg (served (handleUserSessionPost cfg c req form))
  | static (c : StaticCalls) (req : Request) (form : StaticUserSessionRequest)
      (answered : Answered c.password) :
      Spawned cfg (served (handleStaticSessionPost cfg c req form))
  | reconnect (c : ReconnectCalls) (req : Request) (form : ReconnectRequest)
      (answered : Answered c.password) :
      Spawned cfg (served (handleReconnectPost cfg c req form))

theorem conforms_spawned {p : Run Unit} (spawned : Spawned cfg p) :
    Conforms (Move cfg) Rests p .fresh := by
  have page : ∀ {q : Run Page}, Conforms (Move cfg) Rests q .fresh →
      Conforms (Move cfg) Rests (served q) .fresh := by
    intro q conf
    exact conforms_bind conf (fun _ _ rest => rest) (fun _ _ rest => rest)
  cases spawned with
  | user c req form answered => exact page (conforms_handleUserSessionPost answered req form)
  | static c req form answered => exact page (conforms_handleStaticSessionPost answered req form)
  | reconnect c req form answered => exact page (conforms_handleReconnectPost answered req form)

/-- The next step is `docker start`. -/
def Starting (id : Nat) (p : Run Unit) : Prop := ∃ next, p = .step (started id) next

/-- In some course of events the request creates a container with this account and password, and
starts it in its next step. -/
def MayStart (user pass : String) : Run Unit → Prop
  | .done _ => False
  | .step update next => ∃ w, MayStart user pass (next w) ∨
      ∃ c, (update w).engine.find w.engine.nextId = some c ∧ c.winuser = user ∧ c.winpass = pass ∧
        Starting w.engine.nextId (next w)

/-- The request sets no password any more and may still start a container with this one, or the
container is there and is started next. -/
def Remembers (user pass : String) (w : World) (p : Run Unit) : Prop :=
  (MayStart user pass p ∧ p.Steps SameCredentials) ∨
    ∃ id c, Starting id p ∧ w.engine.find id = some c ∧ c.winuser = user ∧ c.winpass = pass

/-- No step takes a password from an account while another request remembers it. -/
def Undisturbed (P P' : Pool World Exn Unit) : Prop :=
  ∀ (i : Nat) p user pass, P.threads[i]? = some p → P'.threads[i]? = some p →
    Remembers user pass P.shared p → Holds P.shared user pass → Holds P'.shared user pass

theorem starting_of_phase {p : Run Unit} {id : Nat} {user pass : String}
    (conf : Conforms (Move cfg) Rests p (.starting id user pass)) : Starting id p := by
  cases p with
  | done r => cases conf
  | step update next =>
    have same : update = started id := by
      funext w
      obtain ⟨ph', move, -⟩ := conf w
      generalize update w = w' at move
      cases move with
      | aside rest h => cases rest
      | start => rfl
    exact ⟨next, by rw [same]⟩

/-- The password has been set. -/
def Phase.past : Phase → Bool
  | .holding _ _ => true
  | .starting _ _ _ => true
  | .finished => true
  | _ => false

theorem move_past {ph ph' : Phase} {w w' : World} (past : ph.past = true)
    (move : Move cfg ph w w' ph') : ph'.past = true ∧ SameCredentials w w' := by
  cases move with
  | aside rest h => exact ⟨past, h.credentials⟩
  | name free => cases past
  | find found => cases past
  | miss missing => cases past
  | add dn => cases past
  | again user dn pass => cases past
  | set => cases past
  | create make env => exact ⟨rfl, rfl⟩
  | start =>
    refine ⟨rfl, ?_⟩
    rw [SameCredentials, credentials, ad_started]
    rfl

theorem steps_of_past {p : Run Unit} {ph : Phase} (past : ph.past = true)
    (conf : Conforms (Move cfg) Rests p ph) : p.Steps SameCredentials := by
  induction p generalizing ph with
  | done r => trivial
  | step update next ih =>
    intro w
    obtain ⟨ph', move, rest⟩ := conf w
    obtain ⟨past', same⟩ := move_past past move
    exact ⟨same, ih w past' rest⟩

/-- A request that cannot come to a start any more is as good as finished. -/
theorem finished_of_never {p : Run Unit} {user pass : String}
    (conf : Conforms (Move cfg) Rests p (.holding user pass)) (never : ¬ MayStart user pass p) :
    Conforms (Move cfg) Rests p .finished := by
  induction p with
  | done r => rfl
  | step update next ih =>
    intro w
    obtain ⟨ph', move, rest⟩ := conf w
    generalize reached : update w = w' at move
    cases move with
    | aside _ h => exact ⟨.finished, .aside rfl h, ih w rest (fun may => never ⟨w, .inl may⟩)⟩
    | create make env =>
      have found : (update w).engine.find w.engine.nextId =
          some { make w.engine.nextId with id := w.engine.nextId } := by
        rw [reached]
        exact Engine.find_create w.engine make
      exact absurd ⟨w, .inr ⟨_, found, env.1, env.2, starting_of_phase rest⟩⟩ never

theorem relies_of_run {start : World} (unique : OneDn start) {P : Pool World Exn Unit}
    (run : Watched (Spawned cfg) Docker Undisturbed start P) :
    OneDn P.shared ∧ ∀ (i : Nat) p, P.threads[i]? = some p →
      ∃ ph, Conforms (Move cfg) Rests p ph ∧ Relies cfg ph P.shared := by
  refine watched_invariant OneDn (Relies cfg) (Evolves cfg) (fun _ => conforms_spawned) unique
    (fun _ => trivial) ?_ ?_ ?_ run
  · intro P P' ph ph' unique relies move _
    obtain ⟨relies', evolves⟩ := relies_move unique relies move
    exact ⟨evolves.unique, relies', evolves⟩
  · intro w w' unique moved
    have evolves : Evolves cfg w w' := docker_evolves unique moved
    exact ⟨evolves.unique, evolves⟩
  · intro P P' i p ph before after conf relies evolves condition
    cases ph with
    | fresh => exact ⟨.fresh, conf, trivial⟩
    | setting user dn pass =>
      exact ⟨.setting user dn pass, conf, placed_evolves evolves relies.1 relies.2,
        settled_evolves evolves relies.2⟩
    | holding user pass =>
      by_cases may : MayStart user pass p
      · have remembered : Remembers user pass P.shared p := .inl ⟨may, steps_of_past rfl conf⟩
        exact ⟨.holding user pass, conf, condition i p user pass before after remembered relies⟩
      · exact ⟨.finished, finished_of_never conf may, trivial⟩
    | starting id user pass =>
      obtain ⟨holds, c, found, env⟩ := relies
      have remembered : Remembers user pass P.shared p :=
        .inr ⟨id, c, starting_of_phase conf, found, env⟩
      obtain ⟨c', found', user', pass'⟩ := evolves.containers id c found
      refine ⟨.starting id user pass, conf, condition i p user pass before after remembered holds,
        c', found', ?_⟩
      rw [user', pass']
      exact env
    | finished => exact ⟨.finished, conf, trivial⟩

/-- Where no step takes away a password that a request remembers, every container starts with the
password that the directory holds for its account. -/
theorem started_with_current_password (cfg : Config) {start : World} (unique : OneDn start)
    {P : Pool World Exn Unit} (run : Watched (Spawned cfg) Docker Undisturbed start P) {i : Nat}
    {c : Container} (starts : .containerStarted c ∈ newEffects P.shared (P.turn i).shared) :
    Holds P.shared c.winuser c.winpass := by
  obtain ⟨-, phases⟩ := relies_of_run unique run
  rw [Pool.turn] at starts
  cases turn : P.threads[i]? with
  | none =>
    rw [turn, newEffects_of_same rfl] at starts
    cases starts
  | some p =>
    obtain ⟨ph, conf, relies⟩ := phases i p turn
    cases p with
    | done r =>
      rw [turn, newEffects_of_same rfl] at starts
      cases starts
    | step update next =>
      rw [turn] at starts
      dsimp only at starts
      obtain ⟨ph', move, -⟩ := conf P.shared
      generalize update P.shared = w' at move starts
      cases move with
      | aside rest h =>
        obtain ⟨effects, trace, other⟩ := h.log
        rw [newEffects_of_append trace] at starts
        exact absurd starts (other c)
      | name free => simp [newEffects] at starts
      | find found => simp [newEffects] at starts
      | miss missing => simp [newEffects] at starts
      | add dn drawn => simp [newEffects, added] at starts
      | again user dn pass => simp [newEffects, reset] at starts
      | set => simp [newEffects, reset] at starts
      | create make env => simp [newEffects, created] at starts
      | start =>
        obtain ⟨holds, c', found, user, pass⟩ := relies
        rw [started, found, newEffects_of_append rfl, List.mem_singleton] at starts
        cases starts
        rw [user, pass]
        exact holds

/-! ## One request, and two -/

/-- Whatever the state, the request remembers no password. -/
def Forgets (p : Run Unit) : Prop := ∀ user pass w, ¬ Remembers user pass w p

theorem forgets_done (r : Except Exn Unit) : Forgets (.done r) := by
  rintro user pass w (⟨may, -⟩ | ⟨id, c, ⟨next, step⟩, -⟩)
  · exact may.elim
  · cases step

/-- A request that only looks something up, and has yet to set a password, remembers none. -/
theorem forgets_before {update : World → World} {next : World → Run Unit} (idle : ∀ w, update w = w)
    {w : World} (sets : credentials ((Prog.step update next).run w).2 ≠ credentials w) :
    Forgets (.step update next) := by
  rintro user pass w' (⟨-, same⟩ | ⟨id, c, ⟨next', step⟩, found, -⟩)
  · exact sets (Prog.run_related (R := SameCredentials) (fun _ => rfl)
      (fun _ _ _ first second => second.trans first) same w)
  · have logged : (started id w').trace = w'.trace := by
      rw [← (Prog.step.inj step).1, idle]
    rw [started, found] at logged
    simp at logged

theorem undisturbed_forgotten {P P' : Pool World Exn Unit} (forgets : ∀ (i : Nat) p,
    P.threads[i]? = some p → P'.threads[i]? = some p → Forgets p) : Undisturbed P P' :=
  fun i p user pass before after remembered =>
    absurd remembered (forgets i p before after user pass P.shared)

theorem undisturbed_spawn (P : Pool World Exn Unit) (p : Run Unit) :
    Undisturbed P ⟨P.shared, P.threads ++ [p]⟩ := fun _ _ _ _ _ _ _ holds => holds

/-- Pat asks for her standing account, which is given that password. -/
def patSubmits (password : String) : Run Unit :=
  served (handleStaticSessionPost sampleConfig { staticCalls with password := .noOutage password }
    sampleRequest staticForm)

theorem spawned_patSubmits (password : String) : Spawned sampleConfig (patSubmits password) :=
  .static _ _ _ ⟨rfl, fun _ => rfl⟩

/-- What the first request starts. -/
def patsContainer : Container where
  id := 0
  image := .default
  vncpassword := "vncsecret"
  winuser := "svc1"
  domain := "dom.ain"
  winpass := "secret"
  rhostname := "host1.dom.ain"
  display := 2
  gateway := none
  status := .running
  launched := false

/-- What it starts when another container is there already. -/
def patsSecondContainer : Container := { patsContainer with id := 1, display := 4 }

/-- The form is submitted and the user's rights are looked up. -/
def checking : Pool World Exn Unit := Pool.turn ⟨staticSite, [patSubmits "secret"]⟩ 0

/-- Before the rights are known the form is submitted once more, and that request runs to its end. -/
def overtaken : Pool World Exn Unit :=
  (List.replicate 20 1).foldl Pool.turn ⟨checking.shared, checking.threads ++ [patSubmits "secret2"]⟩

/-- The first request sets its password after the second one has started a container. -/
def resumed : Pool World Exn Unit := (List.replicate 13 0).foldl Pool.turn overtaken

theorem watched_resumed : Watched (Spawned sampleConfig) Docker Undisturbed staticSite resumed := by
  have asked : Watched (Spawned sampleConfig) Docker Undisturbed staticSite
      ⟨staticSite, [patSubmits "secret"]⟩ :=
    Relation.ReflTransGen.single ⟨.spawn (spawned_patSubmits "secret"), undisturbed_spawn _ _⟩
  have checks : Watched (Spawned sampleConfig) Docker Undisturbed staticSite checking := by
    refine watched_turns (fun _ _ forgets _ => undisturbed_forgotten forgets) 0 1 ?_ asked
      (Pool.along_true _ _)
    rintro (_ | j) q other there
    · exact absurd rfl other
    · cases there
  have overtakes : Watched (Spawned sampleConfig) Docker Undisturbed staticSite overtaken := by
    refine watched_turns (fun _ _ forgets _ => undisturbed_forgotten forgets) 1 20 ?_
      (checks.tail ⟨.spawn (spawned_patSubmits "secret2"), undisturbed_spawn _ _⟩) (Pool.along_true _ _)
    rintro (_ | _ | j) q other ⟨⟩
    · exact forgets_before (w := staticSite) (fun _ => rfl) (by decide +kernel)
    · exact absurd rfl other
  have done : overtaken.threads.tail.all ended = true := by decide +kernel
  refine watched_turns (fun _ _ forgets _ => undisturbed_forgotten forgets) 0 13 ?_ overtakes
    (Pool.along_true _ _)
  rintro (_ | j) q other there
  · exact absurd rfl other
  · rw [← List.getElem?_tail] at there
    obtain ⟨r, rfl⟩ := ended_iff.mp (List.all_eq_true.mp done q (List.mem_of_getElem? there))
    exact forgets_done r

/-- The container starts with the password in the directory. -/
theorem overtaken_request_current_password : ∃ P : Pool World Exn Unit,
    Watched (Spawned sampleConfig) Docker Undisturbed staticSite P ∧
      .containerStarted patsSecondContainer ∈ newEffects P.shared (P.turn 0).shared ∧
      Holds P.shared "svc1" "secret" := by
  have starts : .containerStarted patsSecondContainer ∈
      newEffects resumed.shared (resumed.turn 0).shared := by
    decide +kernel
  exact ⟨_, watched_resumed, starts,
    started_with_current_password sampleConfig (by decide) watched_resumed starts⟩

/-- A second request sets its password before the first container starts. -/
theorem second_request_stale_password : OneDn staticSite ∧ ∃ P : Pool World Exn Unit,
    Watched (Spawned sampleConfig) Docker (fun _ _ => True) staticSite P ∧
      .containerStarted patsContainer ∈ newEffects P.shared (P.turn 0).shared ∧
      ¬ Holds P.shared patsContainer.winuser patsContainer.winpass := by
  let submitted : Pool World Exn Unit := ⟨staticSite, [patSubmits "secret", patSubmits "secret2"]⟩
  let schedule := List.replicate 14 0 ++ List.replicate 7 1
  have asked : Reachable (Spawned sampleConfig) Docker (fun _ _ => True) staticSite submitted :=
    reachable_spawn (reachable_spawn .refl (spawned_patSubmits "secret") trivial)
      (spawned_patSubmits "secret2") trivial
  have reach := reachable_turns asked (submitted.along_true schedule)
  exact ⟨by decide, schedule.foldl Pool.turn submitted, reach, by decide +kernel, by decide +kernel⟩

end HeldPasswords
