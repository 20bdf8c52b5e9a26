import Proconsul.RelyGuarantee
import Proconsul.Application
import Proconsul.AuditTrail
import Proconsul.ConsoleWrites
import Proconsul.HeldPasswords
import Proconsul.Reconnection

/-!
# Whose account a container logs in to

A container is handed the name and the password of an account. The name was drawn for
the user who asks for the session, or a static mapping names it for this user, and a
stored session hands it on to nobody but its owner. A session without a name has no
account; its container is given the text `null`. All of this holds in every
interleaving of both applications, with one request followed from the moment it is
made: whatever containers it creates are its user's own.

How names are drawn is left open; that no name is drawn for two users is not needed.
-/

namespace OwnAccounts

open Program Schema Text Surroundings Access Hosts Accounts Sessions Handlers Cleanup Lifecycle
  Interleaving MainPage DelegatedHosts ConsoleWrites Application RelyGuarantee
open AdminConsole (AdminConfig AdminRequest ConsoleCalls Panel Parameters post)

/-! ## Titles to accounts -/

/-- The names that are drawn for requests of a user id, and the static mappings. -/
structure Titles where
  drawn : Option String → String → Prop
  mapped : List StaticHostRow

/-- Ids are compared as the database compares them. Without a name there is no account. -/
def Titles.Entitles (T : Titles) (uid sam : Option String) : Prop :=
  sam = none ∨
    (∃ owner name, sam = some name ∧ T.drawn owner name ∧ (owner = uid ∨ sqlEq owner uid = true)) ∨
    ∃ r ∈ T.mapped, sqlEq r.eppn uid = true ∧ r.targetuser = sam

structure Rightful (T : Titles) (w : World) : Prop where
  mapped : w.db.staticHost = T.mapped
  rows : ∀ r ∈ w.db.sessions, T.Entitles r.owner r.samaccountname

/-- Any container that was not there before logs in to an account of the user. -/
def OnlyOwn (T : Titles) (uid : Option String) (w w' : World) : Prop :=
  ∀ c ∈ w'.engine.containers,
    (∃ c₀ ∈ w.engine.containers, c₀.id = c.id ∧ c₀.winuser = c.winuser) ∨
      ∃ sam, c.winuser = javaString sam ∧ T.Entitles uid sam

abbrev Owns {α : Type} (T : Titles) (uid : Option String) (V : α → Prop) (p : Run α) : Prop :=
  Upholds (Rightful T) (OnlyOwn T uid) V p

section Steps

variable {T : Titles} {uid : Option String}

theorem Titles.Entitles.passed {owner sam : Option String} (entitled : T.Entitles owner sam)
    (same : sqlEq owner uid = true) : T.Entitles uid sam := by
  rcases entitled with missing | ⟨first, name, named, drawn, alike⟩ | ⟨r, listed, owned, target⟩
  · exact .inl missing
  · refine .inr (.inl ⟨first, name, named, drawn, .inr ?_⟩)
    rcases alike with rfl | alike
    · exact same
    · exact sqlEq_trans alike same
  · exact .inr (.inr ⟨r, listed, sqlEq_trans owned same, target⟩)

theorem onlyOwn_of_same {w w' : World}
    (kept : ∀ c ∈ w'.engine.containers,
      ∃ c₀ ∈ w.engine.containers, c₀.id = c.id ∧ c₀.winuser = c.winuser) :
    OnlyOwn T uid w w' := fun c hc => .inl (kept c hc)

/-- The rows that are left belong to the owners they belonged to. -/
theorem Rightful.of_rows {w w' : World} (h : Rightful T w) (static : w'.db.staticHost = w.db.staticHost)
    (known : ∀ r ∈ w'.db.sessions, ∃ r₀ ∈ w.db.sessions,
      r₀.owner = r.owner ∧ r₀.samaccountname = r.samaccountname) : Rightful T w' where
  mapped := static.trans h.mapped
  rows := by
    intro r hr
    obtain ⟨r₀, stored, owner, sam⟩ := known r hr
    rw [← owner, ← sam]
    exact h.rows r₀ stored

theorem onlyOwn_refl (w : World) : OnlyOwn T uid w w := onlyOwn_of_same (fun c hc => ⟨c, hc, rfl, rfl⟩)

/-- Nobody gains a session or a container. -/
structure Harmless (T : Titles) (w w' : World) : Prop where
  rightful : Rightful T w → Rightful T w'
  kept : ∀ c ∈ w'.engine.containers,
    ∃ c₀ ∈ w.engine.containers, c₀.id = c.id ∧ c₀.winuser = c.winuser

theorem harmless_of_same {w w' : World} (static : w'.db.staticHost = w.db.staticHost)
    (sessions : w'.db.sessions = w.db.sessions) (engine : w'.engine = w.engine) : Harmless T w w' where
  rightful h := ⟨static.trans h.mapped, fun r hr => h.rows r (sessions ▸ hr)⟩
  kept c hc := ⟨c, engine ▸ hc, rfl, rfl⟩

theorem harmless_of_rows {w w' : World} (static : w'.db.staticHost = w.db.staticHost)
    (engine : w'.engine = w.engine) (known : ∀ r ∈ w'.db.sessions, ∃ r₀ ∈ w.db.sessions,
      r₀.owner = r.owner ∧ r₀.samaccountname = r.samaccountname) : Harmless T w w' where
  rightful h := h.of_rows static known
  kept c hc := ⟨c, engine ▸ hc, rfl, rfl⟩

theorem harmless_tokens {w w' : World} (h : OnlyTokens w w') : Harmless T w w' := by
  obtain ⟨tokens, rfl⟩ := h
  exact harmless_of_same rfl rfl rfl

theorem known_updateWhere {rows : List SessionRow} {sel : SessionRow → Bool}
    {f : SessionRow → SessionRow}
    (same : ∀ r, (f r).owner = r.owner ∧ (f r).samaccountname = r.samaccountname)
    {r : SessionRow} (hr : r ∈ updateWhere sel f rows) :
    ∃ r₀ ∈ rows, r₀.owner = r.owner ∧ r₀.samaccountname = r.samaccountname := by
  obtain ⟨r₀, stored, rfl⟩ := List.mem_map.mp hr
  refine ⟨r₀, stored, ?_⟩
  split
  · exact ⟨(same r₀).1.symm, (same r₀).2.symm⟩
  · exact ⟨rfl, rfl⟩

theorem kept_change {e : Engine} {id : Nat} {f : Container → Container} (same : ∀ c, (f c).id = c.id)
    (user : ∀ c, (f c).winuser = c.winuser) {c : Container} (hc : c ∈ (e.change id f same).containers) :
    ∃ c₀ ∈ e.containers, c₀.id = c.id ∧ c₀.winuser = c.winuser := by
  obtain ⟨c₀, there, rfl⟩ := List.mem_map.mp hc
  refine ⟨c₀, there, ?_⟩
  split
  · exact ⟨(same c₀).symm, (user c₀).symm⟩
  · exact ⟨rfl, rfl⟩

theorem kept_setStatus {e : Engine} {id : Nat} {status : ContainerStatus} {c : Container}
    (hc : c ∈ (e.setStatus id status).containers) :
    ∃ c₀ ∈ e.containers, c₀.id = c.id ∧ c₀.winuser = c.winuser :=
  kept_change (f := fun c => { c with status := status }) (fun _ => rfl) (fun _ => rfl) hc

theorem kept_removeContainer {c x : Container} {w : World}
    (hx : x ∈ (removeContainer c w).engine.containers) :
    ∃ c₀ ∈ w.engine.containers, c₀.id = x.id ∧ c₀.winuser = x.winuser := by
  rw [removeContainer] at hx
  split at hx
  · exact ⟨x, hx, rfl, rfl⟩
  · exact ⟨x, (mem_deleteWhere.mp hx).1, rfl, rfl⟩

theorem harmless_logs : Logs (Harmless T) :=
  ⟨fun _ => harmless_of_same rfl rfl rfl, fun _ _ => harmless_of_same rfl rfl rfl⟩

theorem harmless_routine : Routine (Harmless T) where
  logs := harmless_logs
  accounts _ _ _ _ := harmless_of_same rfl rfl rfl
  register _ _ := harmless_of_same rfl rfl rfl
  disable _ _ _ := harmless_of_same rfl rfl rfl
  issue _ _ := harmless_of_same rfl rfl rfl
  touch _ _ _ := harmless_of_same rfl rfl rfl
  lend _ _ := harmless_of_same rfl rfl rfl
  reschedule _ _ _ _ := harmless_of_same rfl rfl rfl

theorem harmless_script (adbase : String) (now : Int) (c : Container) :
    PermitsScript (Harmless T) adbase now c where
  auditLine _ _ := harmless_of_same rfl rfl rfl
  deleteSessions _ :=
    harmless_of_rows rfl rfl (fun r hr => ⟨r, (mem_deleteWhere.mp hr).1, rfl, rfl⟩)
  disconnectSessions _ :=
    harmless_of_rows rfl rfl (fun _ hr => known_updateWhere (f := fun r =>
      { r with running := false, connected := false, status := some "disconnected" })
      (fun _ => ⟨rfl, rfl⟩) hr)
  deletePort _ := harmless_of_same rfl rfl rfl
  deleteAccount _ := harmless_of_same rfl rfl rfl
  endAdmins _ := harmless_of_same rfl rfl rfl
  removeContainer _ := ⟨fun h => ⟨h.mapped, h.rows⟩, fun _ hx => kept_removeContainer hx⟩

theorem harmless_docker {w w' : World} (moved : Docker w w') : Harmless T w w' := by
  cases moved with
  | launch up =>
    exact ⟨fun h => ⟨h.mapped, h.rows⟩, fun _ hc =>
      kept_change (f := fun c => { c with launched := true }) (fun _ => rfl) (fun _ => rfl) hc⟩
  | exit up retval => exact ⟨fun h => ⟨h.mapped, h.rows⟩, fun _ hc => kept_setStatus hc⟩

/-- The console has no form for sessions or static mappings. -/
theorem harmless_writes {p : Parameters} {panel : Panel} {w w' : World} (h : Writes p panel w w') :
    Harmless T w w' := by
  rcases h with rfl | ⟨db, written, rfl⟩
  · exact harmless_logs.refl w'
  · have same := unlisted_write written
    have static : (unlisted db).staticHost = (unlisted w.db).staticHost :=
      congrArg Database.staticHost same
    have sessions : (unlisted db).sessions = (unlisted w.db).sessions := congrArg Database.sessions same
    exact harmless_of_same static sessions rfl

theorem owns_of_steps {α : Type} {V : α → Prop} {p : Run α} (hp : p.Steps (Harmless T))
    (hv : p.Returns V) : Owns T uid V p :=
  upholds_of_steps hp hv (fun _ _ inv h => ⟨h.rightful inv, onlyOwn_of_same h.kept⟩)

theorem owns_reads {α : Type} {V : α → Prop} {p : Run α} (hp : p.Reads) (hv : p.Returns V) :
    Owns T uid V p :=
  owns_of_steps (hp.steps harmless_logs.refl) hv

theorem owns_deref {α : Type} {V : α → Prop} {o : Option α} (h : ∀ x, o = some x → V x) :
    Owns T uid V (deref o) := by
  cases o with
  | none => exact fun _ => trivial
  | some x => exact upholds_pure (h x rfl)

end Steps

/-! ## Sessions of their owner -/

section Opening

variable {T : Titles} {cfg : Config}

/-- The session belongs to the user, and so does its account. -/
structure Own (T : Titles) (uid : Option String) (s : ProconsulSession) : Prop where
  owner : s.owner.uid = uid
  account : T.Entitles uid s.targetUser.sAMAccountName

variable {uid : Option String}

theorem own_target {s s' : ProconsulSession} (own : Own T uid s) (same : SameTarget s s') :
    Own T uid s' := by
  refine ⟨by rw [same.owner, own.owner], ?_⟩
  rw [same.sam]
  exact own.account

theorem permits_own {s : ProconsulSession} (own : Own T uid s) : Permits (Harmless T) s where
  insert w := by
    refine ⟨fun h => ⟨h.mapped, fun r hr => ?_⟩, fun c hc => ⟨c, hc, rfl, rfl⟩⟩
    rcases List.mem_append.mp hr with old | new
    · exact h.rows r old
    · obtain rfl := List.mem_singleton.mp new
      change T.Entitles s.owner.uid s.targetUser.sAMAccountName
      rw [own.owner]
      exact own.account
  update _ :=
    harmless_of_rows rfl rfl (fun _ hr => known_updateWhere (f := refreshRow s)
      (fun _ => ⟨rfl, rfl⟩) hr)

theorem owns_writeSessionToDB (c : WriteCalls) {s : ProconsulSession} (own : Own T uid s)
    (addr : Option String) : Owns T uid (fun _ => True) (writeSessionToDB c s addr) :=
  owns_of_steps (steps_writeSessionToDB harmless_logs (permits_own own) _ _) (Prog.returns_any _)

theorem owns_getVncPortNumber (c : PortCalls) (s : ProconsulSession) :
    Owns T uid (fun _ => True) (getVncPortNumber c s) :=
  owns_of_steps (steps_getVncPortNumber harmless_logs.refl
    (fun _ _ => harmless_of_same rfl rfl rfl) _ _)
    (Prog.returns_any _)

theorem owns_openSession (c : OpenCalls) {s : ProconsulSession} (own : Own T uid s)
    (addr : Option String) : Owns T uid (Own T uid) (openSession c s addr) := by
  refine upholds_bind (owns_getVncPortNumber _ _) (fun port _ => ?_)
  have numbered : Own T uid { s with novncPort := port } := ⟨own.owner, own.account⟩
  refine owns_of_steps (steps_recordSession harmless_logs (fun s' same => ?_) addr) ?_
  · exact permits_own (own_target numbered same)
  · exact (returns_recordSession addr).mono (fun s' same => own_target numbered same)

/-- The one step that creates a container. -/
theorem owns_start (c : ContainerCalls) (size : Image) {s : ProconsulSession} (own : Own T uid s) :
    Owns T uid (fun _ => True) (start cfg c size s) := by
  rw [start]
  split
  · exact upholds_throwing _
  split
  · exact upholds_throwing _
  refine upholds_bind (V := fun _ => True) (upholds_atom (fun w inv => ?_))
    (fun id _ => upholds_atom (fun w inv => ?_))
  · split
    · exact ⟨inv, onlyOwn_refl w, fun _ _ => trivial⟩
    · refine ⟨⟨inv.mapped, inv.rows⟩, fun ct hct => ?_, fun _ _ => trivial⟩
      rcases List.mem_append.mp hct with old | new
      · exact .inl ⟨ct, old, rfl, rfl⟩
      · obtain rfl := List.mem_singleton.mp new
        exact .inr ⟨s.targetUser.sAMAccountName, rfl, own.account⟩
  · split
    · exact ⟨inv, onlyOwn_refl w, fun _ _ => trivial⟩
    · split
      · exact ⟨⟨inv.mapped, inv.rows⟩, onlyOwn_of_same (fun _ hc => kept_setStatus hc),
          fun _ _ => trivial⟩
      · exact ⟨⟨inv.mapped, inv.rows⟩, onlyOwn_of_same (fun _ hc => kept_setStatus hc),
          fun _ _ => trivial⟩

theorem owns_launch (c : LaunchCalls) (size : Image) {s : ProconsulSession} (own : Own T uid s)
    (addr : Option String) : Owns T uid (fun _ => True) (launch cfg c size s addr) := by
  refine upholds_bind (owns_start _ _ own) (fun _ _ => ?_)
  have connected : Own T uid { s with status := .connected } := ⟨own.owner, own.account⟩
  refine upholds_bind (owns_writeSessionToDB _ connected _) (fun _ _ => ?_)
  refine upholds_bind (V := fun _ => True) ?_ (fun _ _ => upholds_pure trivial)
  rw [awaitReady]
  split
  · exact upholds_pure trivial
  · exact upholds_throwing _

/-- Adding groups leaves the name of the account alone. -/
theorem owns_finishSession (c : FinishCalls) (size : Image) {s : ProconsulSession} (own : Own T uid s)
    {u : ADUser} {o : Option ADUser} (entitled : T.Entitles uid u.sAMAccountName)
    (same : SameUser u o) (addr : Option String) :
    Owns T uid (fun _ => True) (finishSession cfg c size s o addr) := by
  obtain ⟨v, rfl, sam, -⟩ := same
  refine upholds_bind (owns_deref (V := fun x => v = x) (fun x hx => Option.some.inj hx)) ?_
  rintro _ rfl
  have grouped : Own T uid { s with targetUser := v } := ⟨own.owner, sam ▸ entitled⟩
  refine upholds_bind (owns_writeSessionToDB _ grouped _) (fun _ _ => ?_)
  exact owns_launch _ _ grouped addr

theorem reads_loadSessions (c : SessionCalls) (au : AuthUser) (rows : List (SessionRow × Nat))
    (retval : List ProconsulSession) : (loadSessions cfg c au rows retval).Reads := by
  induction rows generalizing retval with
  | nil => exact Prog.steps_pure _
  | cons r rest ih =>
    refine Prog.steps_bind (reads_loadAdUser _ _ _) (fun user => ?_)
    cases rowStatus r.1 with
    | none => exact Prog.steps_pure _
    | some status => exact ih _

theorem owns_getAvailableSessions (c : SessionCalls) (au : AuthUser) :
    Owns T uid (fun psa => ∀ s ∈ psa, Own T au.uid s) (getAvailableSessions cfg c au) := by
  have stored : Owns T uid (fun rows => ∀ r ∈ rows, sqlEq r.owner au.uid = true ∧
      T.Entitles r.owner r.samaccountname) (query c.rows .sessions ["owner"] (fun db =>
        db.sessions.filter (fun r => sqlEq r.owner au.uid))) := by
    refine upholds_atom (fun w inv => ?_)
    split
    · exact ⟨inv, onlyOwn_refl w, fun _ hx => by cases hx⟩
    · refine ⟨inv, onlyOwn_refl w, ?_⟩
      rintro _ ⟨⟩ r hr
      obtain ⟨there, mine⟩ := List.mem_filter.mp hr
      exact ⟨mine, inv.rows r there⟩
  refine upholds_bind (V := fun found => ∀ rows, found = some rows → ∀ r ∈ rows,
    sqlEq r.owner au.uid = true ∧ T.Entitles r.owner r.samaccountname)
    (upholds_attempt stored ?_ ?_) (fun found named => ?_)
  · rintro rows named _ ⟨⟩
    exact named
  · rintro rows ⟨⟩
  · cases found with
    | none => exact upholds_pure (fun s hs => by cases hs)
    | some rows =>
      have mine : ∀ r ∈ rows.zipIdx, r.1 ∈ rows ∧ sqlEq r.1.owner au.uid = true := fun r hr =>
        ⟨List.fst_mem_of_mem_zipIdx hr, (named rows rfl r.1 (List.fst_mem_of_mem_zipIdx hr)).1⟩
      refine owns_reads (reads_loadSessions c au _ _)
        ((Reconnection.returns_loadSessions cfg c rows.zipIdx mine [] (by simp)).mono ?_)
      rintro psa read s hs
      obtain ⟨r, there, same, owner, -, sam⟩ := read s hs
      refine ⟨by rw [owner], ?_⟩
      rw [sam]
      exact (named rows rfl r there).2.passed same

end Opening

/-! ## Requests -/

section Requests

variable {T : Titles} {cfg : Config}

theorem returns_nextName (c : CreateCalls) (tries i : Nat) :
    (nextName c tries i).Returns (fun name => ∃ j, name = c.names j) := by
  induction tries generalizing i with
  | zero => exact trivial
  | succ tries ih =>
    refine Prog.returns_bind (Prog.returns_any _) (fun free _ => ?_)
    cases free with
    | false => exact ih (i + 1)
    | true => exact Prog.returns_pure ⟨i, rfl⟩

theorem owns_createRandomizedADUser {c : CreateCalls} {au : AuthUser}
    (drawn : ∀ i, T.drawn au.uid (c.names i)) :
    Owns T au.uid (fun o => ∀ u, o = some u → T.Entitles au.uid u.sAMAccountName)
      (createRandomizedADUser cfg c (some au)) := by
  refine owns_of_steps (steps_create harmless_routine _ _ _) ?_
  have found : (Prog.attempt (getRandomSamaccountname c)).Returns
      (fun o => ∀ name, o = some name → ∃ j, name = c.names j) := by
    refine Prog.returns_orElse (Prog.returns_bind (returns_nextName c 10 0) (fun name hname => ?_)) ?_
    · apply Prog.returns_pure
      rintro _ ⟨⟩
      exact hname
    · rintro _ ⟨⟩
  refine Prog.returns_bind found (fun o named => ?_)
  cases o with
  | none =>
    apply Prog.returns_pure
    rintro _ ⟨⟩
  | some name =>
    obtain ⟨j, rfl⟩ := named name rfl
    refine (AuditTrail.returns_createAdUser cfg c (some au) _).mono (fun o same u hu => ?_)
    exact .inr (.inl ⟨au.uid, c.names j, same u hu, drawn j, .inl rfl⟩)

theorem owns_setRandomADPassword {uid : Option String} (c : PasswordCalls) (u : ADUser) :
    Owns T uid (fun u' => u'.sAMAccountName = u.sAMAccountName) (setRandomADPassword cfg c u) :=
  owns_of_steps (steps_password harmless_routine _ _ _) (returns_setRandomADPassword _ _ _)

theorem owns_getStaticADUser (fails : Bool) (c : PasswordCalls) (au : AuthUser) (fqdn : Option String) :
    Owns T au.uid (fun u => T.Entitles au.uid u.sAMAccountName)
      (getStaticADUser cfg fails c au fqdn) := by
  have mapped : Owns T au.uid (T.Entitles au.uid)
      (query fails .staticHost ["targetuser", "eppn", "fqdn"]
        (fun db => (db.staticHost.filter (fun r =>
          sqlEq r.eppn au.uid && sqlEq r.fqdn fqdn)).getLast?.bind StaticHostRow.targetuser)) := by
    refine upholds_atom (fun w inv => ?_)
    split
    · exact ⟨inv, onlyOwn_refl w, fun _ hx => by cases hx⟩
    · refine ⟨inv, onlyOwn_refl w, ?_⟩
      rintro _ ⟨⟩
      dsimp only
      cases last : (w.db.staticHost.filter
          (fun r => sqlEq r.eppn au.uid && sqlEq r.fqdn fqdn)).getLast? with
      | none => exact .inl rfl
      | some r =>
        obtain ⟨there, fits⟩ := List.mem_filter.mp (List.mem_of_getLast? last)
        exact .inr (.inr ⟨r, inv.mapped ▸ there, (Bool.and_eq_true_iff.mp fits).1, rfl⟩)
  refine upholds_bind (upholds_orElse mapped (.inl rfl)) (fun sam entitled => ?_)
  refine (owns_setRandomADPassword c _).weaken (fun u same => ?_)
  rw [same]
  exact entitled

theorem owns_gated {uid : Option String} {gs : List Gate} (tokens : ∀ g ∈ gs, g.Steps OnlyTokens)
    {f : Option Page → Run Page} (stopped : ∀ page, f (some page) = pure page)
    (passed : Owns T uid (fun _ => True) (f none)) : Owns T uid (fun _ => True) (inOrder gs >>= f) := by
  have gates : (inOrder gs).Steps (Harmless T) :=
    Prog.steps_mono (fun _ _ h => harmless_tokens h) (steps_inOrder tokens)
  refine upholds_bind (owns_of_steps gates (Prog.returns_any _)) (fun page _ => ?_)
  cases page with
  | none => exact passed
  | some page =>
    rw [stopped]
    exact upholds_pure trivial

theorem owns_withAccount {c : CreateCalls} {au : AuthUser} (drawn : ∀ i, T.drawn au.uid (c.names i))
    {gs : List Gate} (tokens : ∀ g ∈ gs, g.Steps OnlyTokens) {body : ADUser → Run Page}
    (hbody : ∀ u, T.Entitles au.uid u.sAMAccountName → Owns T au.uid (fun _ => True) (body u)) :
    Owns T au.uid (fun _ => True) (withAccount cfg c (some au) (inOrder gs) body) := by
  refine owns_gated tokens (fun _ => rfl) ?_
  refine upholds_bind (owns_createRandomizedADUser drawn) (fun o entitled => ?_)
  exact upholds_bind (owns_deref entitled) hbody

theorem own_newSession {au : AuthUser} {u : ADUser} (entitled : T.Entitles au.uid u.sAMAccountName)
    (host : Option String) (vncPassword displayName type : String) (ou role : Option String) :
    Own T au.uid (newSession au host vncPassword u displayName type ou role) := ⟨rfl, entitled⟩

theorem owns_anyDeref {α : Type} {uid : Option String} (o : Option α) :
    Owns T uid (fun _ => True) (deref o) := owns_deref (fun _ _ => trivial)

theorem owns_handleUserSessionPost {c : UserCalls} {req : Request}
    (drawn : ∀ i, T.drawn req.authUser.uid (c.create.names i)) (form : UserSessionRequest) :
    Owns T req.authUser.uid (fun _ => True) (handleUserSessionPost cfg c req form) := by
  refine owns_withAccount drawn (onlyTokens_userGates c req form) (fun u entitled => ?_)
  refine upholds_bind (owns_anyDeref _) (fun displayName _ => ?_)
  refine upholds_bind (owns_anyDeref _) (fun target _ => ?_)
  refine upholds_bind (owns_openSession _ (own_newSession entitled _ _ _ _ _ _) _) (fun s own => ?_)
  refine upholds_bind (owns_of_steps (steps_groups harmless_routine _ _ _ _ _ _)
    (HeldPasswords.returns_userGroups _ _ _ _ _)) (fun o same => ?_)
  exact owns_finishSession _ _ own entitled same _

theorem owns_handleStaticSessionPost (c : StaticCalls) (req : Request)
    (form : StaticUserSessionRequest) :
    Owns T req.authUser.uid (fun _ => True) (handleStaticSessionPost cfg c req form) := by
  refine owns_gated (onlyTokens_staticGates c req form) (fun _ => rfl) ?_
  refine upholds_bind (owns_getStaticADUser _ _ _ _) (fun u entitled => ?_)
  refine upholds_bind (owns_anyDeref _) (fun displayName _ => ?_)
  refine upholds_bind (owns_anyDeref _) (fun target _ => ?_)
  exact upholds_bind (owns_openSession _ (own_newSession entitled _ _ _ _ _ _) _)
    (fun s own => owns_launch _ _ own _)

/-- What is left of a created user once the groups are added; a page means that it is gone. -/
def Grouped (u : ADUser) (r : Page ⊕ Option ADUser) : Prop := ∀ o, r = .inr o → SameUser u o

theorem grouped_inl (u : ADUser) (page : Page) : Grouped u (.inl page) := by
  rintro o ⟨⟩

theorem grouped_inr {u : ADUser} {o : Option ADUser} (same : SameUser u o) : Grouped u (.inr o) := by
  rintro _ ⟨⟩
  exact same

theorem returns_domainGroups (c : DomainCalls) (au : AuthUser) (host : String) (u : ADUser)
    (addr : Option String) : (domainGroups cfg c au host u addr).Returns (Grouped u) := by
  have undone : (do
      let _ ← deleteAdUser cfg c.undo u (some au) addr
      return .inl daUnavailable : Run (Page ⊕ Option ADUser)).Returns (Grouped u) :=
    Prog.returns_bind (Prog.returns_any _) (fun _ _ => Prog.returns_pure (grouped_inl u _))
  refine Prog.returns_bind (Prog.returns_any _) (fun granted _ => ?_)
  cases granted with
  | false => exact undone
  | true =>
    refine Prog.returns_bind (returns_addGroupToADUser cfg _ _ u _ _) ?_
    rintro _ ⟨u₁, rfl, same₁⟩
    have grouped : SameUser u (some u₁) := ⟨u₁, rfl, same₁⟩
    exact Prog.returns_bind (returns_addGatewayAccessGroup cfg _ u₁ _)
      (fun _ same => Prog.returns_pure (grouped_inr (grouped.trans same)))

theorem returns_orUndo {c : DeleteCalls} {au : AuthUser} {addr : Option String} {before u : ADUser}
    {message : String} {add : Run (Option ADUser)} {next : ADUser → Run (Page ⊕ Option ADUser)}
    (hadd : add.Returns (SameUser u))
    (hnext : ∀ u', SameUser u (some u') → (next u').Returns (Grouped u)) :
    (orUndo cfg c au addr before message add next).Returns (Grouped u) := by
  refine Prog.returns_bind hadd ?_
  rintro _ ⟨u', rfl, same⟩
  exact hnext u' ⟨u', rfl, same⟩

theorem returns_delegatedGroups (c : DelegatedCalls) (au : AuthUser) (host : String)
    (roleGroup : Option String) (u : ADUser) (addr : Option String) :
    (delegatedGroups cfg c au host roleGroup u addr).Returns (Grouped u) := by
  refine Prog.returns_bind (returns_addGroupToADUser cfg _ _ u _ _) ?_
  rintro _ ⟨u₁, rfl, same₁⟩
  have grouped₁ : SameUser u (some u₁) := ⟨u₁, rfl, same₁⟩
  refine returns_orUndo ((returns_addHostAccessGroup cfg _ u₁ _).mono (fun _ h => grouped₁.trans h))
    (fun u₂ same₂ => ?_)
  refine returns_orUndo (Prog.returns_bind (Prog.returns_any _) (fun _ _ =>
    (returns_addGroupToADUser cfg _ _ u₂ _ _).mono (fun _ h => same₂.trans h))) (fun u₃ same₃ => ?_)
  refine returns_orUndo ((returns_addGroupToADUser cfg _ _ u₃ _ _).mono (fun _ h => same₃.trans h))
    (fun u₄ same₄ => ?_)
  exact Prog.returns_bind (returns_addGatewayAccessGroup cfg _ u₄ _)
    (fun _ h => Prog.returns_pure (grouped_inr (same₄.trans h)))

theorem owns_grouped {uid : Option String} {u : ADUser} {s : ProconsulSession} (own : Own T uid s)
    (entitled : T.Entitles uid u.sAMAccountName) {groups : Run (Page ⊕ Option ADUser)}
    (steps : groups.Steps (Harmless T)) (returns : groups.Returns (Grouped u)) (c : FinishCalls)
    (size : Image) (addr : Option String) : Owns T uid (fun _ => True) (do
      match ← groups with
      | .inl page => return page
      | .inr o => finishSession cfg c size s o addr : Run Page) := by
  refine upholds_bind (owns_of_steps steps returns) (fun r grouped => ?_)
  cases r with
  | inl page => exact upholds_pure trivial
  | inr o => exact owns_finishSession _ _ own entitled (grouped o rfl) _

theorem owns_handleDomainAdminPost {c : DomainCalls} {req : Request}
    (drawn : ∀ i, T.drawn req.authUser.uid (c.create.names i)) (form : DomainAdminRequest) :
    Owns T req.authUser.uid (fun _ => True) (handleDomainAdminPost cfg c req form) := by
  refine upholds_bind (owns_anyDeref _) (fun target _ => ?_)
  refine upholds_bind (owns_anyDeref _) (fun displayName _ => ?_)
  refine owns_withAccount drawn (onlyTokens_domainGates c req form _) (fun u entitled => ?_)
  refine upholds_bind (owns_openSession _ (own_newSession entitled _ _ _ _ _ _) _) (fun s own => ?_)
  exact owns_grouped own entitled (steps_domainGroups harmless_routine _ _ _ _ _ _)
    (returns_domainGroups _ _ _ _ _) _ _ _

theorem owns_handleDelegatedAdminPost {c : DelegatedCalls} {req : Request}
    (drawn : ∀ i, T.drawn req.authUser.uid (c.create.names i)) (form : DelegatedAdminRequest) :
    Owns T req.authUser.uid (fun _ => True) (handleDelegatedAdminPost cfg c req form) := by
  refine upholds_bind (owns_anyDeref _) (fun host _ => ?_)
  refine upholds_bind (owns_anyDeref _) (fun displayName _ => ?_)
  refine owns_withAccount drawn (onlyTokens_delegatedGates c req form _) (fun u entitled => ?_)
  refine upholds_bind (owns_openSession _ (own_newSession entitled _ _ _ _ _ _) _) (fun s own => ?_)
  exact owns_grouped own entitled (steps_delegatedGroups harmless_routine _ _ _ _ _ _ _)
    (returns_delegatedGroups _ _ _ _ _ _) _ _ _

theorem owns_handleReconnectPost (c : ReconnectCalls) (req : Request) (form : ReconnectRequest) :
    Owns T req.authUser.uid (fun _ => True) (handleReconnectPost cfg c req form) := by
  refine owns_gated (onlyTokens_reconnectGates c req form) (fun _ => rfl) ?_
  refine upholds_bind (owns_getAvailableSessions _ _) (fun psa own => ?_)
  cases chosen : chooseSession req.authUser form.targetFQDN psa with
  | none => exact upholds_pure trivial
  | some s =>
    have mine := own s (List.mem_filter.mp (List.mem_of_getLast? chosen)).1
    refine upholds_bind (owns_getVncPortNumber _ _) (fun port _ => ?_)
    refine upholds_bind (owns_setRandomADPassword _ _) (fun u same => ?_)
    have resumed : Own T req.authUser.uid { s with
        novncPort := port, status := .starting, startTime := some c.startTime, targetUser := u
        vncPassword := some c.vncPassword } := ⟨mine.owner, same ▸ mine.account⟩
    exact upholds_bind (owns_writeSessionToDB _ resumed _) (fun _ _ => owns_launch _ _ resumed _)

end Requests

/-! ## Both applications, and one request among all -/

/-- Requests that may create containers, with the user who makes them. -/
inductive Asks (T : Titles) (cfg : Config) : AuthUser → Run Unit → Prop where
  | user (c : UserCalls) (req : Request) (form : UserSessionRequest)
      (drawn : ∀ i, T.drawn req.authUser.uid (c.create.names i)) :
      Asks T cfg req.authUser (served (handleUserSessionPost cfg c req form))
  | static (c : StaticCalls) (req : Request) (form : StaticUserSessionRequest) :
      Asks T cfg req.authUser (served (handleStaticSessionPost cfg c req form))
  | domain (c : DomainCalls) (req : Request) (form : DomainAdminRequest)
      (drawn : ∀ i, T.drawn req.authUser.uid (c.create.names i)) :
      Asks T cfg req.authUser (served (handleDomainAdminPost cfg c req form))
  | delegated (c : DelegatedCalls) (req : Request) (form : DelegatedAdminRequest)
      (drawn : ∀ i, T.drawn req.authUser.uid (c.create.names i)) :
      Asks T cfg req.authUser (served (handleDelegatedAdminPost cfg c req form))
  | reconnect (c : ReconnectCalls) (req : Request) (form : ReconnectRequest) :
      Asks T cfg req.authUser (served (handleReconnectPost cfg c req form))

/-- What can be running; accounts that are checked out get any name. -/
inductive Running (T : Titles) (config : AdminConfig) (cfg : Config) (adbase : String) :
    Run Unit → Prop where
  | asks {au : AuthUser} {p : Run Unit} (h : Asks T cfg au p) : Running T config cfg adbase p
  | cleanup (calls : ScriptCalls) : Running T config cfg adbase (cleanup adbase calls)
  | checkOut (c : Checkout.CheckoutCalls) (req : Request) (form : Checkout.CheckedOutCredRequest) :
      Running T config cfg adbase (answered (Checkout.handleCheckOutPost cfg c req form))
  | update (c : Checkout.UpdateCheckoutCalls) (req : Request) (form : Checkout.UpdateCheckoutRequest) :
      Running T config cfg adbase (answered (Checkout.handleUpdateCheckout c req form))
  | page (c : RootCalls) (req : Request) :
      Running T config cfg adbase (answered (handleRootRequest cfg c req))
  | hosts (fails : Bool) (ou : String) : Running T config cfg adbase (answered (handleFQDNOU fails ou))
  | sweep (column : String) (c : Checkout.SweepCalls) (active : Bool) (t : Int) :
      Running T config cfg adbase (Checkout.runReading column cfg c active t)
  | posted (c : ConsoleCalls) (panel : Panel) (request : AdminRequest) :
      Running T config cfg adbase (answered (post config c request panel))

section Runs

variable {T : Titles} {config : AdminConfig} {cfg : Config} {adbase : String}

theorem owns_served {uid : Option String} {p : Run Sessions.Page} (h : Owns T uid (fun _ => True) p) :
    Owns T uid (fun _ => True) (served p) :=
  upholds_bind h (fun _ _ => upholds_pure trivial)

theorem owns_asks {au : AuthUser} {p : Run Unit} (h : Asks T cfg au p) :
    Owns T au.uid (fun _ => True) p := by
  cases h with
  | user c req form drawn => exact owns_served (owns_handleUserSessionPost drawn form)
  | static c req form => exact owns_served (owns_handleStaticSessionPost c req form)
  | domain c req form drawn => exact owns_served (owns_handleDomainAdminPost drawn form)
  | delegated c req form drawn => exact owns_served (owns_handleDelegatedAdminPost drawn form)
  | reconnect c req form => exact owns_served (owns_handleReconnectPost c req form)

theorem upholds_harmless {p : Run Unit} (h : p.Steps (Harmless T)) :
    Upholds (Rightful T) (fun _ _ => True) (fun _ => True) p :=
  upholds_of_steps h (Prog.returns_any _) (fun _ _ inv kept => ⟨kept.rightful inv, trivial⟩)

theorem upholds_running {p : Run Unit} (h : Running T config cfg adbase p) :
    Upholds (Rightful T) (fun _ _ => True) (fun _ => True) p := by
  cases h with
  | asks asked => exact (owns_asks asked).promising (fun _ _ _ => trivial)
  | cleanup calls =>
    refine upholds_harmless (Prog.steps_bind (Prog.steps_atom (fun w => ?_)) (fun _ =>
      Prog.steps_forM (fun c =>
        steps_script harmless_logs.refl (harmless_script adbase calls.now c)) _))
    exact harmless_of_same rfl rfl rfl
  | checkOut c req form =>
    exact upholds_harmless (steps_answered (steps_handleCheckOutPost harmless_routine _ _ _ _))
  | update c req form =>
    exact upholds_harmless (steps_answered (steps_handleUpdateCheckout harmless_routine _ _ _))
  | page c req =>
    exact upholds_harmless (steps_answered (steps_handleRootRequest harmless_routine _ _ _))
  | hosts fails ou =>
    refine upholds_harmless (steps_answered (Prog.steps_bind ?_ (fun _ => Prog.steps_pure _)))
    exact (reads_fqdnsForOu _ _).steps harmless_logs.refl
  | sweep column c active t => exact upholds_harmless (steps_runReading harmless_routine _ _ _ _ _)
  | posted c panel request =>
    exact upholds_harmless (steps_answered (Prog.steps_mono (fun _ _ => harmless_writes)
      (steps_writes config c request panel)))

/-- A request joins whatever is running. Each container that it creates, however much later and
whatever happens in between, logs in to an account drawn for its user or mapped to its user, unless
its session has no account: a static mapping or a stored row may lack the name, and the container is
then given the text `null`. -/
theorem containers_run_own_accounts {start : World} (rightful : Rightful T start)
    {P P' : Pool World Exn Unit} {au : AuthUser} {request : Run Unit} (asks : Asks T cfg au request)
    (reach : Reachable (Running T config cfg adbase) Docker (fun _ _ => True) start P)
    (later : Continues (Running T config cfg adbase) Docker (fun _ _ => True)
      ⟨P.shared, P.threads ++ [request]⟩ P')
    {c : Container} (there : c ∈ (P'.turn P.threads.length).shared.engine.containers)
    (new : ∀ old ∈ P'.shared.engine.containers, old.id ≠ c.id) :
    ∃ sam, c.winuser = javaString sam ∧ T.Entitles au.uid sam := by
  have promised : Promised (Rightful T) (fun _ _ => True) (OnlyOwn T au.uid) P.threads.length P' :=
    joined_promised (fun _ => trivial) (fun _ _ _ _ _ => trivial)
      (fun _ running => upholds_running running)
      (fun _ _ inv moved _ => ⟨(harmless_docker moved).rightful inv, trivial⟩) rightful reach
      (.asks asks) (owns_asks asks) later
  rcases turn_promised (fun _ => trivial) promised with same | own
  · exact absurd rfl (new c (same ▸ there))
  · rcases own c there with ⟨old, was, id, -⟩ | entitled
    · exact absurd id (new old was)
    · exact entitled

end Runs

/-- One name, drawn for Pat. -/
def patTitles : Titles := ⟨fun uid name => uid = some "pat@dom.ain" ∧ name = "ab3de6fgh-eas", []⟩

/-- The moment before her container is created. -/
def patWaiting : Pool World Exn Unit :=
  (List.replicate 25 0).foldl Pool.turn ⟨sampleSite, [patOpens "ab3de6fgh-eas"]⟩

theorem pats_container_runs_own_account :
    patWaiting.shared.engine.containers = [] ∧
      (patWaiting.turn 0).shared.engine.containers.length = 1 ∧
      ∀ c ∈ (patWaiting.turn 0).shared.engine.containers,
        ∃ sam, c.winuser = javaString sam ∧ patTitles.Entitles (some "pat@dom.ain") sam := by
  have alone : patWaiting.shared.engine.containers = [] := by decide +kernel
  have rightful : Rightful patTitles sampleSite := ⟨rfl, fun _ stored => by cases stored⟩
  have asks : Asks patTitles sampleConfig sampleRequest.authUser (patOpens "ab3de6fgh-eas") :=
    .user _ _ _ (fun _ => ⟨rfl, rfl⟩)
  have later : Continues (Running patTitles ⟨none, none, none, none⟩ sampleConfig
      sampleConfig.targetbase) Docker (fun _ _ => True)
      ⟨sampleSite, [] ++ [patOpens "ab3de6fgh-eas"]⟩ patWaiting := continues_turns (Pool.along_true _ _)
  refine ⟨alone, by decide +kernel, fun c there => ?_⟩
  refine containers_run_own_accounts rightful asks (P := ⟨sampleSite, []⟩) .refl later there ?_
  rw [alone]
  rintro old ⟨⟩

end OwnAccounts
