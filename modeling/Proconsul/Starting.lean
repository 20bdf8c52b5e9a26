import Proconsul.Handlers

/-!
# Which requests start a container, and which one

From its port allocation on, a session handler either runs into an exception
or starts exactly one container. `Starts` gives the exact condition together
with what the container serves; a relation `R` carries along whatever else a
result needs to know about the same execution.
-/

namespace Starting

open Program Schema Text Surroundings Access Hosts Accounts Sessions Handlers

/-! ## Logs and containers -/

def started (effects : List Effect) : List Container :=
  effects.filterMap (fun e => match e with
    | .containerStarted c => some c
    | _ => none)

theorem mem_started {effects : List Effect} {c : Container} :
    c ∈ started effects ↔ .containerStarted c ∈ effects := by
  rw [started, List.mem_filterMap]
  constructor
  · rintro ⟨e, he, hc⟩
    cases e <;> simp at hc
    exact hc ▸ he
  · intro h
    exact ⟨_, h, rfl⟩

theorem started_append (es es' : List Effect) : started (es ++ es') = started es ++ started es' :=
  List.filterMap_append

theorem started_quiet {effects : List Effect} (quiet : ∀ e ∈ effects, Effect.quiet e = true) :
    started effects = [] := by
  rw [List.eq_nil_iff_forall_not_mem]
  intro c hc
  exact absurd (quiet _ (mem_started.mp hc)) (by simp [Effect.quiet])

/-- The log has grown, but not by the start of a container. -/
def Calm (w w' : World) : Prop := ∃ effects, w'.trace = w.trace ++ effects ∧ started effects = []

theorem calm_quiet : Quiet Calm := fun _ _ _ _ _ effects h => ⟨effects, rfl, started_quiet h⟩

theorem calm_trans (w w' w'' : World) (h : Calm w w') (h' : Calm w' w'') : Calm w w'' := by
  obtain ⟨es, hes, hs⟩ := h
  obtain ⟨es', hes', hs'⟩ := h'
  exact ⟨es ++ es', by rw [hes', hes, List.append_assoc], by rw [started_append, hs, hs']; rfl⟩

theorem calm_permits (s : ProconsulSession) : Permits Calm s :=
  ⟨fun _ => ⟨_, rfl, rfl⟩, fun _ => ⟨_, rfl, rfl⟩⟩

/-! ## Executions that start a container -/

section Starts

variable {R : World → World → Prop} {α β : Type} {ok ok' : Prop} {P : Container → Prop}

def calmly (R : World → World → Prop) (w w' : World) : Prop := R w w' ∧ Calm w w'

theorem calmly_trans (trans : ∀ s t r, R s t → R t r → R s r) (w w' w'' : World)
    (h : calmly R w w') (h' : calmly R w' w'') : calmly R w w'' :=
  ⟨trans _ _ _ h.1 h'.1, calm_trans _ _ _ h.2 h'.2⟩

theorem calmly_quiet (quiet : Quiet R) : Quiet (calmly R) :=
  fun w accounts log admins tokens effects h =>
    ⟨quiet w accounts log admins tokens effects h, calm_quiet w accounts log admins tokens effects h⟩

theorem calmly_permits {s : ProconsulSession} (permits : Permits R s) : Permits (calmly R) s :=
  ⟨fun w => ⟨permits.insert w, (calm_permits s).insert w⟩,
    fun w => ⟨permits.update w, (calm_permits s).update w⟩⟩

/-- From every state the program stays within `R`; under the condition `ok`
exactly one container starts, which satisfies `P`, and otherwise none. -/
def Starts (R : World → World → Prop) (ok : Prop) (P : Container → Prop) (p : Run α) : Prop :=
  ∀ w, R w (p.run w).2 ∧ ∃ effects, (p.run w).2.trace = w.trace ++ effects ∧
    ((ok ∧ ∃ c, started effects = [c] ∧ P c) ∨ (¬ ok ∧ started effects = []))

theorem starts_bind (trans : ∀ s t r, R s t → R t r → R s r) {Q : α → Prop} {p : Run α}
    {f : α → Run β} (hp : p.Delivers (calmly R) ok Q) (hf : ∀ a, Q a → Starts R ok' P (f a)) :
    Starts R (ok ∧ ok') P (p >>= f) := by
  intro w
  obtain ⟨⟨hR, es, hes, calm⟩, hout⟩ := hp w
  rw [Prog.run_bind]
  rcases hr : p.run w with ⟨r, w₁⟩
  rw [hr] at hR hes hout
  rcases hout with ⟨hok, a, rfl, ha⟩ | ⟨hfail, e, rfl⟩
  · obtain ⟨hR', es', hes', hout'⟩ := hf a ha w₁
    refine ⟨trans _ _ _ hR hR', es ++ es', by rw [hes', hes, List.append_assoc], ?_⟩
    rw [started_append, calm, List.nil_append]
    rcases hout' with ⟨hok', hc⟩ | ⟨hfail', hnone⟩
    · exact .inl ⟨⟨hok, hok'⟩, hc⟩
    · exact .inr ⟨fun h => hfail' h.2, hnone⟩
  · exact ⟨hR, es, hes, .inr ⟨fun h => hfail h.1, calm⟩⟩

theorem starts_bind_total (trans : ∀ s t r, R s t → R t r → R s r) {Q : α → Prop} {p : Run α}
    {f : α → Run β} (hp : p.Delivers (calmly R) True Q) (hf : ∀ a, Q a → Starts R ok' P (f a)) :
    Starts R ok' P (p >>= f) := by
  have h := starts_bind trans hp hf
  rwa [true_and] at h

/-- What comes after the start no longer matters. -/
theorem starts_then (quiet : Quiet R) (trans : ∀ s t r, R s t → R t r → R s r) {p : Run α}
    {f : α → Run β} (hp : Starts R ok P p) (hf : ∀ a, (f a).Steps (calmly R)) :
    Starts R ok P (p >>= f) := by
  intro w
  obtain ⟨hR, es, hes, hout⟩ := hp w
  rw [Prog.run_bind]
  rcases hr : p.run w with ⟨e | a, w₁⟩
  · rw [hr] at hR hes
    exact ⟨hR, es, hes, hout⟩
  · rw [hr] at hR hes
    obtain ⟨hR', es', hes', calm⟩ := Prog.run_related (calmly_quiet quiet).refl
      (calmly_trans trans) (hf a) w₁
    refine ⟨trans _ _ _ hR hR', es ++ es', ?_, ?_⟩
    · rw [← List.append_assoc, ← hes]
      exact hes'
    · rwa [started_append, calm, List.append_nil]

theorem starts_pure (refl : ∀ w, R w w) (a : α) (h : ¬ ok) : Starts R ok P (pure a : Run α) :=
  fun w => ⟨refl w, [], by simp, .inr ⟨h, rfl⟩⟩

theorem starts_congr {p : Run α} (h : ok ↔ ok') (hp : Starts R ok P p) : Starts R ok' P p := by
  rwa [← propext h]

theorem Starts.imp {P' : Container → Prop} {p : Run α} (hp : Starts R ok P p)
    (sub : ∀ c, P c → P' c) : Starts R ok P' p := by
  intro w
  obtain ⟨hR, es, hes, hout⟩ := hp w
  refine ⟨hR, es, hes, ?_⟩
  rcases hout with ⟨hok, c, hc, hP⟩ | hno
  · exact .inl ⟨hok, c, hc, sub c hP⟩
  · exact .inr hno

end Starts

/-! ## Containers of a session -/

/-- The container connects to the session's host, as its account, on its display. -/
structure Serves (s : ProconsulSession) (c : Container) : Prop where
  rhostname : c.rhostname = javaString s.fqdn
  winuser : c.winuser = javaString s.targetUser.sAMAccountName
  display : c.display = s.novncPort

theorem Serves.of_same {s s' : ProconsulSession} {c : Container} (same : SameTarget s s')
    (h : Serves s' c) : Serves s c :=
  ⟨h.rhostname.trans (congrArg _ same.fqdn), h.winuser.trans (congrArg _ same.sam),
    h.display.trans same.port⟩

/-- `R` does not look at the Docker engine. -/
def IgnoresEngine (R : World → World → Prop) : Prop :=
  ∀ (w : World) engine effects, (∀ e ∈ effects, Effect.ofEngine e = true) →
    R w { w with engine := engine, trace := w.trace ++ effects }

section Launching

variable {R : World → World → Prop}

theorem starts_start (engine : IgnoresEngine R) (cfg : Config) (c : ContainerCalls) (size : Image)
    (s : ProconsulSession) :
    Starts R (c.succeed cfg = true) (Serves s) (start cfg c size s) := by
  intro w
  have refl : R w w := by simpa using engine w w.engine []
  have refused : ∀ e, c.succeed cfg ≠ true → R w ((Prog.throwing e : Run Unit).run w).2 ∧
      ∃ effects, ((Prog.throwing e : Run Unit).run w).2.trace = w.trace ++ effects ∧
      ((c.succeed cfg = true ∧ ∃ ct, started effects = [ct] ∧ Serves s ct) ∨
        (¬ c.succeed cfg = true ∧ started effects = [])) :=
    fun e h => ⟨refl, [], by simp, .inr ⟨h, rfl⟩⟩
  rw [start]
  split
  · rename_i himage
    exact refused _ (by simp [ContainerCalls.succeed, himage])
  · split
    · rename_i hcpuset
      exact refused _ (by simp [ContainerCalls.succeed, hcpuset])
    · rename_i himage hcpuset
      rw [Prog.run_bind, createContainer, Prog.run_atom]
      cases hcreate : c.create with
      | true => exact ⟨refl, [], by simp, .inr ⟨by simp [ContainerCalls.succeed, hcreate], rfl⟩⟩
      | false =>
        simp only [Bool.false_eq_true, if_false, startContainer, Prog.run_atom, Engine.find_create]
        cases hstart : c.start with
        | true =>
          refine ⟨engine w _ _ (by simp [Effect.ofEngine]), _, rfl,
            .inr ⟨by simp [ContainerCalls.succeed, hstart], rfl⟩⟩
        | false =>
          refine ⟨?_, [.containerCreated w.engine.nextId, _], List.append_assoc _ _ _,
            .inl ⟨by simp [ContainerCalls.succeed, himage, hcpuset, hcreate, hstart], _, rfl,
              ⟨rfl, rfl, rfl⟩⟩⟩
          simpa using engine w _ [.containerCreated w.engine.nextId, .containerStarted _]
            (by simp [Effect.ofEngine])

variable (quiet : Quiet R) (trans : ∀ s t r, R s t → R t r → R s r) (engine : IgnoresEngine R)

include quiet trans engine

theorem starts_launch {s : ProconsulSession} (permits : ∀ s', SameTarget s s' → Permits R s')
    (cfg : Config) (c : LaunchCalls) (size : Image) (clientaddr : Option String) :
    Starts R (c.container.succeed cfg = true) (Serves s) (launch cfg c size s clientaddr) := by
  refine starts_then quiet trans (starts_start engine cfg c.container size s) (fun _ => ?_)
  have same : SameTarget s { s with status := .connected } := ⟨rfl, rfl, rfl, rfl, rfl, id⟩
  refine Prog.steps_bind (steps_writeSessionToDB (calmly_quiet quiet).logs
    (calmly_permits (permits _ same)) _ _) (fun _ => Prog.steps_bind ?_ (fun _ => Prog.steps_pure _))
  rw [awaitReady]
  split
  · exact Prog.steps_pure _
  · exact Prog.steps_throwing _

theorem starts_finishSession {s : ProconsulSession} {u : ADUser} {o : Option ADUser}
    (permits : ∀ s', SameTarget s s' → Permits R s') (dated : s.startTime.isSome = true)
    (account : s.targetUser.sAMAccountName = u.sAMAccountName) (grouped : SameUser u o)
    (cfg : Config) (c : FinishCalls) (size : Image) (addr : Option String) :
    Starts R (c.write.succeed = true ∧ c.launch.container.succeed cfg = true) (Serves s)
      (finishSession cfg c size s o addr) := by
  obtain ⟨u', rfl, hsam, -⟩ := grouped
  have same : SameTarget s { s with targetUser := u' } :=
    ⟨rfl, rfl, hsam.trans account.symm, rfl, rfl, id⟩
  change Starts R _ _ (writeSessionToDB c.write { s with targetUser := u' } addr >>= fun _ =>
    launch cfg c.launch size { s with targetUser := u' } addr)
  exact starts_bind trans (delivers_writeSessionToDB (calmly_quiet quiet).logs (calmly_trans trans)
    (calmly_permits (permits _ same)) dated c.write addr)
    (fun _ _ => (starts_launch quiet trans engine (fun s' h => permits s' (same.trans h)) cfg
      c.launch size addr).imp (fun _ => Serves.of_same same))

end Launching

/-! ## The groups of a new account -/

section Groups

variable {R : World → World → Prop} (quiet : Quiet R) (trans : ∀ s t r, R s t → R t r → R s r)

include quiet trans

theorem delivers_deleteAdUser (cfg : Config) (c : DeleteCalls) (u : ADUser) (au : Option AuthUser)
    (clientip : Option String) :
    (deleteAdUser cfg c u au clientip).Delivers R True (fun _ => True) := by
  have steps := quiet_deleteAdUser quiet cfg c u au clientip
  rw [deleteAdUser] at steps ⊢
  split
  · rename_i named placed
    rw [named, placed] at steps
    exact Prog.delivers_orElse quiet.refl trans steps (Prog.returns_any _)
  · exact Prog.delivers_pure quiet.refl trivial

theorem delivers_makeUserAuthorizedDA (c : AdminCalls) (u : ADUser) (authu : Option AuthUser)
    (clientip : Option String) :
    (makeUserAuthorizedDA c u authu clientip).Delivers R True (fun b => b = !c.write) := by
  intro w
  refine ⟨Prog.run_related quiet.refl trans (quiet_makeUserAuthorizedDA quiet _ _ _ _) w,
    .inl ⟨trivial, !c.write, ?_, rfl⟩⟩
  rw [makeUserAuthorizedDA, Prog.run_orElse, Prog.run_bind, run_execute rfl]
  cases c.write with
  | true => rfl
  | false =>
    simp only [Bool.false_eq_true, if_false]
    obtain ⟨w', hlog, -⟩ := run_audit c.audit "makeActiveDA" (authu.bind AuthUser.uid) none
      u.sAMAccountName none clientip _
    rw [Prog.run_bind_ok hlog]
    rfl

theorem delivers_userGroups (cfg : Config) (c : UserGroupCalls) (au : AuthUser)
    (target : Option String) (u : ADUser) (addr : Option String) :
    (userGroups cfg c au target u addr).Delivers R True (SameUser u) := by
  refine Prog.delivers_bind_total trans (delivers_addGroupToADUser quiet trans _ _ _ u _ _) ?_
  rintro _ ⟨u₁, rfl, same₁⟩
  have grouped₁ : SameUser u (some u₁) := ⟨u₁, rfl, same₁⟩
  refine Prog.delivers_bind_total trans (delivers_addHostAccessGroup quiet trans _ _ u₁ _) ?_
  rintro _ ⟨u₂, rfl, same₂⟩
  have grouped₂ : SameUser u (some u₂) := grouped₁.trans ⟨u₂, rfl, same₂⟩
  refine Prog.delivers_bind_total trans (Prog.delivers_orElse quiet.refl trans
    ((reads_groupDnsForEppn _ _).steps quiet.refl) (Prog.returns_any _)) (fun dns _ => ?_)
  refine Prog.delivers_bind_total trans (Prog.delivers_foldlM quiet.refl trans ?_ _ grouped₂) ?_
  · rintro _ dn ⟨u₃, rfl, same₃⟩
    have grouped₃ : SameUser u (some u₃) := ⟨u₃, rfl, same₃⟩
    exact (delivers_addGroupToADUser quiet trans _ _ _ u₃ _ _).mono (fun _ _ h => h)
      (fun _ h => grouped₃.trans h)
  · rintro _ ⟨u₃, rfl, same₃⟩
    have grouped₃ : SameUser u (some u₃) := ⟨u₃, rfl, same₃⟩
    exact (delivers_addGatewayAccessGroup quiet trans _ _ u₃ _).mono (fun _ _ h => h)
      (fun _ h => grouped₃.trans h)

/-- The registration decides: every group addition hands the object back. -/
theorem delivers_domainGroups (cfg : Config) (c : DomainCalls) (au : AuthUser) (host : String)
    (u : ADUser) (addr : Option String) :
    (domainGroups cfg c au host u addr).Delivers R True (fun r =>
      if c.register.write then ∃ page, r = .inl page else ∃ o, r = .inr o ∧ SameUser u o) := by
  refine Prog.delivers_bind_total trans (delivers_makeUserAuthorizedDA quiet trans _ _ _ _) ?_
  rintro _ rfl
  cases c.register.write with
  | true =>
    exact Prog.delivers_bind_total trans (delivers_deleteAdUser quiet trans _ _ _ _ _)
      (fun _ _ => Prog.delivers_pure quiet.refl ⟨_, rfl⟩)
  | false =>
    refine Prog.delivers_bind_total trans (delivers_addGroupToADUser quiet trans _ _ _ u _ _) ?_
    rintro _ ⟨u₁, rfl, same₁⟩
    have grouped₁ : SameUser u (some u₁) := ⟨u₁, rfl, same₁⟩
    exact Prog.delivers_bind_total trans (delivers_addGatewayAccessGroup quiet trans _ _ u₁ _)
      (fun o h => Prog.delivers_pure quiet.refl ⟨o, rfl, grouped₁.trans h⟩)

theorem delivers_delegatedGroups (cfg : Config) (c : DelegatedCalls) (au : AuthUser) (host : String)
    (roleGroup : Option String) (u : ADUser) (addr : Option String) :
    (delegatedGroups cfg c au host roleGroup u addr).Delivers R True (fun r =>
      ∃ o, r = .inr o ∧ SameUser u o) := by
  refine Prog.delivers_bind_total trans (delivers_addGroupToADUser quiet trans _ _ _ u _ _) ?_
  rintro _ ⟨u₁, rfl, same₁⟩
  have grouped₁ : SameUser u (some u₁) := ⟨u₁, rfl, same₁⟩
  refine Prog.delivers_bind_total trans (delivers_addHostAccessGroup quiet trans _ _ u₁ _) ?_
  rintro _ ⟨u₂, rfl, same₂⟩
  have grouped₂ : SameUser u (some u₂) := grouped₁.trans ⟨u₂, rfl, same₂⟩
  refine Prog.delivers_bind_total trans (Q := SameUser u₂) ?_ ?_
  · exact Prog.delivers_bind_total trans (delivers_groupDnForFQDN quiet.refl trans _ _ _)
      (fun managing _ => delivers_addGroupToADUser quiet trans _ _ _ u₂ _ _)
  rintro _ ⟨u₃, rfl, same₃⟩
  have grouped₃ : SameUser u (some u₃) := grouped₂.trans ⟨u₃, rfl, same₃⟩
  refine Prog.delivers_bind_total trans (delivers_addGroupToADUser quiet trans _ _ _ u₃ _ _) ?_
  rintro _ ⟨u₄, rfl, same₄⟩
  have grouped₄ : SameUser u (some u₄) := grouped₃.trans ⟨u₄, rfl, same₄⟩
  exact Prog.delivers_bind_total trans (delivers_addGatewayAccessGroup quiet trans _ _ u₄ _)
    (fun o h => Prog.delivers_pure quiet.refl ⟨o, rfl, grouped₄.trans h⟩)

end Groups

/-! ## From the port on -/

/-- What remains of a request that opens a session: it raises without effect
when no port can be had, and otherwise goes on from the reserved port within
`R`, starting a container exactly under the condition `ok`. -/
def Opens (R : World → World → Prop) (c : PortCalls) (ok : Prop) (P : Nat → Container → Prop)
    (p : Run Page) : Prop :=
  ∀ w, (allocates c w = false ∧ (p.run w).2 = w) ∨
    (allocates c w = true ∧ ∃ row q, p.run w = q.run (reserve row w) ∧
      Starts R ok (P row.portnum) q)

section Opening

variable {R : World → World → Prop} {ok : Prop} {P : Nat → Container → Prop}

theorem opens_getVncPortNumber {c : PortCalls} {s : ProconsulSession} {g : Nat → Run Page}
    (h : ∀ port, Starts R ok (P port) (g port)) :
    Opens R c ok P (getVncPortNumber c s >>= g) := by
  intro w
  rcases run_getVncPortNumber c s w with ⟨no, e, hrun⟩ | ⟨yes, row, hrun⟩
  · exact .inl ⟨no, by rw [Prog.run_bind_error hrun]⟩
  · exact .inr ⟨yes, row, g row.portnum, Prog.run_bind_ok hrun, h row.portnum⟩

/-- The port is taken first; the rest of the request goes on from it. -/
theorem run_openSession_bind (c : OpenCalls) (s : ProconsulSession) (addr : Option String)
    (g : ProconsulSession → Run Page) (w : World) :
    (openSession c s addr >>= g).run w =
      (getVncPortNumber c.port s >>= fun port => recordSession c s addr port >>= g).run w := by
  rw [openSession, Prog.run_bind, Prog.run_bind, Prog.run_bind]
  rcases (getVncPortNumber c.port s).run w with ⟨e | port, w'⟩
  · rfl
  · exact (Prog.run_bind _ _ _).symm

theorem opens_openSession {c : OpenCalls} {s : ProconsulSession} {addr : Option String}
    {g : ProconsulSession → Run Page}
    (h : ∀ port, Starts R ok (P port) (recordSession c s addr port >>= g)) :
    Opens R c.port ok P (openSession c s addr >>= g) := by
  have opens := opens_getVncPortNumber (c := c.port) (s := s) h
  intro w
  rw [run_openSession_bind]
  exact opens w

variable (quiet : Quiet R) (trans : ∀ s t r, R s t → R t r → R s r) (engine : IgnoresEngine R)

include quiet trans engine

theorem opens_userSession {cfg : Config} {c : UserCalls} {req : Request} {form : UserSessionRequest}
    {u : ADUser} {target displayName : String} (hosted : form.targetFQDN = some target)
    (displayed : form.displayName = some displayName) {s : ProconsulSession}
    (hs : s = newSession req.authUser (some (keepOnly looseHostChar target)) c.vncPassword u
      (keepOnly displayChar displayName) "user" none none)
    (permits : ∀ port s', SameTarget { s with novncPort := port } s' → Permits R s') :
    Opens R c.opening.port (c.opening.write.succeed = true ∧ c.finish.write.succeed = true ∧
        c.finish.launch.container.succeed cfg = true)
      (fun port => Serves { s with novncPort := port }) (userSession cfg c req form u) := by
  subst hs
  rw [userSession, hosted, displayed]
  refine opens_openSession (fun port => ?_)
  refine starts_bind trans (delivers_recordSession (calmly_quiet quiet).logs (calmly_trans trans)
    (fun s' same => calmly_permits (permits port s' same)) _) (fun s' same => ?_)
  refine starts_bind_total trans (delivers_userGroups (calmly_quiet quiet) (calmly_trans trans)
    _ _ _ _ u _) (fun o grouped => ?_)
  exact (starts_finishSession quiet trans engine (fun s'' h => permits port s'' (same.trans h))
    (same.dated rfl) same.sam grouped cfg c.finish _ _).imp (fun _ => Serves.of_same same)

theorem opens_domainSession {cfg : Config} {c : DomainCalls} {req : Request}
    {host displayName : String} {u : ADUser} {s : ProconsulSession}
    (hs : s = newSession req.authUser (some host) c.vncPassword u displayName "domain" none none)
    (permits : ∀ port s', SameTarget { s with novncPort := port } s' → Permits R s') :
    Opens R c.opening.port (c.opening.write.succeed = true ∧ c.register.write = false ∧
        c.finish.write.succeed = true ∧ c.finish.launch.container.succeed cfg = true)
      (fun port => Serves { s with novncPort := port })
      (domainSession cfg c req host displayName u) := by
  subst hs
  refine opens_openSession (fun port => ?_)
  refine starts_bind trans (delivers_recordSession (calmly_quiet quiet).logs (calmly_trans trans)
    (fun s' same => calmly_permits (permits port s' same)) _) (fun s' same => ?_)
  refine starts_bind_total trans (delivers_domainGroups (calmly_quiet quiet) (calmly_trans trans)
    _ _ _ _ u _) (fun r grouped => ?_)
  cases registered : c.register.write with
  | true =>
    simp only [registered, if_true] at grouped
    obtain ⟨page, rfl⟩ := grouped
    exact starts_pure quiet.refl _ (by simp)
  | false =>
    simp only [registered, Bool.false_eq_true, if_false] at grouped
    obtain ⟨o, rfl, grouped⟩ := grouped
    refine starts_congr (by simp) ((starts_finishSession quiet trans engine
      (fun s'' h => permits port s'' (same.trans h))
        (same.dated rfl) same.sam grouped cfg c.finish _ _).imp
      (fun _ => Serves.of_same same))

theorem opens_delegatedSession {cfg : Config} {c : DelegatedCalls} {req : Request}
    {form : DelegatedAdminRequest} {host displayName : String} {u : ADUser} {s : ProconsulSession}
    (hs : s = newSession req.authUser (some host) c.vncPassword u displayName "delegated"
      form.orgUnit form.roleGroup)
    (permits : ∀ port s', SameTarget { s with novncPort := port } s' → Permits R s') :
    Opens R c.opening.port (c.opening.write.succeed = true ∧ c.finish.write.succeed = true ∧
        c.finish.launch.container.succeed cfg = true)
      (fun port => Serves { s with novncPort := port })
      (delegatedSession cfg c req form host displayName u) := by
  subst hs
  refine opens_openSession (fun port => ?_)
  refine starts_bind trans (delivers_recordSession (calmly_quiet quiet).logs (calmly_trans trans)
    (fun s' same => calmly_permits (permits port s' same)) _) (fun s' same => ?_)
  refine starts_bind_total trans (delivers_delegatedGroups (calmly_quiet quiet) (calmly_trans trans)
    _ _ _ _ _ u _) ?_
  rintro _ ⟨o, rfl, grouped⟩
  exact (starts_finishSession quiet trans engine (fun s'' h => permits port s'' (same.trans h))
    (same.dated rfl) same.sam grouped cfg c.finish _ _).imp (fun _ => Serves.of_same same)

theorem opens_staticSession {cfg : Config} {c : StaticCalls} {req : Request}
    {form : StaticUserSessionRequest} {u : ADUser} {target displayName : String}
    (hosted : form.targetFQDN = some target) (displayed : form.displayName = some displayName)
    {s : ProconsulSession}
    (hs : s = newSession req.authUser (some (keepOnly looseHostChar target)) c.vncPassword u
      (keepOnly displayChar displayName) "static" none none)
    (permits : ∀ port s', SameTarget { s with novncPort := port } s' → Permits R s') :
    Opens R c.opening.port (c.opening.write.succeed = true ∧ c.launch.container.succeed cfg = true)
      (fun port => Serves { s with novncPort := port }) (staticSession cfg c req form u) := by
  subst hs
  rw [staticSession, hosted, displayed]
  refine opens_openSession (fun port => ?_)
  refine starts_bind trans (delivers_recordSession (calmly_quiet quiet).logs (calmly_trans trans)
    (fun s' same => calmly_permits (permits port s' same)) _) (fun s' same => ?_)
  exact (starts_launch quiet trans engine (fun s'' h => permits port s'' (same.trans h)) cfg
    c.launch _ _).imp (fun _ => Serves.of_same same)

end Opening

end Starting
