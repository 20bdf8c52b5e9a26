import Mathlib.Data.List.Forall2
import Mathlib.Data.List.TakeWhile
import Proconsul.Handlers

/-!
# Sessions written and read back

A session is inserted into fourteen columns and rebuilt from eight of them.
`run_getAvailableSessions` says exactly which sessions a reader gets from a
table, and the result compares them with the session that was written. The
database refuses a value that its column cannot take, for its length or for a
character that the tables do not have.
-/

namespace SessionStorage

open Program Schema Text Surroundings Hosts Accounts Sessions

/-! ## Reading -/

/-- The session is what the reader makes of the row. -/
def ReadAs (au : AuthUser) (startTime : String) (r : SessionRow) (s : ProconsulSession) : Prop :=
  ∃ user status, user.sAMAccountName = r.samaccountname ∧ rowStatus r = some status ∧
    s = storedSession au user status startTime r

/-- A row whose status the reader can parse. -/
def readable (r : SessionRow) : Bool := (rowStatus r).isSome

theorem run_loadAdUser (cfg : Config) (c : LoadCalls) (sam : Option String) (w : World) :
    ∃ user, (loadAdUser cfg c sam).run w = (.ok user, w) ∧ user.sAMAccountName = sam := by
  have reads := Prog.run_unchanged (reads_loadAdUser cfg c sam) w
  have ou : ∃ ou, ((getOu c.ou sam).run w).1 = .ok ou := by
    unfold getOu
    split
    · exact ⟨none, rfl⟩
    · exact (Prog.run_orElse_ok _ _ w).imp (fun _ h => congrArg Prod.fst h)
  have memberships : ∀ w, ∃ ms, ((getMemberships c.memberships sam).run w).1 = .ok ms := by
    intro w
    unfold getMemberships
    split
    · exact ⟨[], rfl⟩
    · exact (Prog.run_orElse_ok _ _ w).imp (fun _ h => congrArg Prod.fst h)
  obtain ⟨o, ho⟩ := ou
  rcases hou : (getOu c.ou sam).run w with ⟨r, w₁⟩
  rw [hou] at ho
  obtain rfl : r = .ok o := ho
  obtain ⟨ms, hms⟩ := memberships w₁
  rcases hmem : (getMemberships c.memberships sam).run w₁ with ⟨r, w₂⟩
  rw [hmem] at hms
  obtain rfl : r = .ok ms := hms
  have hrun : (loadAdUser cfg c sam).run w = (.ok (⟨sam, none, some cfg.domain, o, ms, true⟩ : ADUser),
      w₂) := by
    rw [loadAdUser, Prog.run_bind_ok hou, Prog.run_bind_ok hmem]
    rfl
  rw [hrun] at reads
  obtain rfl : w₂ = w := reads
  exact ⟨_, hrun, rfl⟩

theorem run_loadSessions (cfg : Config) (c : SessionCalls) (au : AuthUser) (w : World)
    (rows : List (SessionRow × Nat)) (retval : List ProconsulSession) :
    ∃ psa, (loadSessions cfg c au rows retval).run w = (.ok (retval ++ psa), w) ∧
      List.Forall₂ (ReadAs au c.startTime) ((rows.map Prod.fst).takeWhile readable) psa := by
  induction rows generalizing retval with
  | nil => exact ⟨[], by simp [loadSessions], .nil⟩
  | cons r rest ih =>
    obtain ⟨user, hload, named⟩ := run_loadAdUser cfg (c.load r.2) r.1.samaccountname w
    rw [loadSessions, Prog.run_bind_ok hload, List.map_cons]
    cases hs : rowStatus r.1 with
    | none => exact ⟨[], by simp, by simp [readable, hs]⟩
    | some status =>
      obtain ⟨psa, hrun, read⟩ := ih (retval ++ [storedSession au user status c.startTime r.1])
      refine ⟨storedSession au user status c.startTime r.1 :: psa, ?_, ?_⟩
      · dsimp only
        rw [hrun, List.append_assoc]
        rfl
      · rw [List.takeWhile_cons_of_pos (by simp [readable, hs])]
        exact .cons ⟨user, status, named, hs, rfl⟩ read

/-- The rows of a user, in the order of the table, as far as they can be read. -/
def ownRows (au : AuthUser) (db : Database) : List SessionRow :=
  db.sessions.filter (fun r => sqlEq r.owner au.uid)

theorem run_getAvailableSessions (cfg : Config) (load : Nat → LoadCalls) (startTime : String)
    (au : AuthUser) (w : World) :
    ∃ psa, (getAvailableSessions cfg ⟨false, load, startTime⟩ au).run w = (.ok psa, w) ∧
      List.Forall₂ (ReadAs au startTime) ((ownRows au w.db).takeWhile readable) psa := by
  obtain ⟨psa, hrun, read⟩ := run_loadSessions cfg ⟨false, load, startTime⟩ au w
    (ownRows au w.db).zipIdx []
  rw [List.zipIdx_map_fst] at read
  refine ⟨psa, ?_, read⟩
  rw [getAvailableSessions, Prog.run_bind, Prog.run_attempt, run_query rfl]
  exact hrun

section Matching

variable {α β : Type} {R : α → β → Prop} {rows : List α} {psa : List β}

theorem exists_row (h : List.Forall₂ R rows psa) {t : β} (ht : t ∈ psa) : ∃ r ∈ rows, R r t := by
  induction h with
  | nil => cases ht
  | cons hread _ ih =>
    rcases List.mem_cons.mp ht with rfl | ht
    · exact ⟨_, List.mem_cons_self, hread⟩
    · obtain ⟨r, hr, hr'⟩ := ih ht
      exact ⟨r, List.mem_cons_of_mem _ hr, hr'⟩

theorem exists_session (h : List.Forall₂ R rows psa) {r : α} (hr : r ∈ rows) : ∃ t ∈ psa, R r t := by
  have turned : List.Forall₂ (flip R) psa rows := List.Forall₂.flip h
  exact exists_row turned hr

/-- A row that cannot be read hides all that come after it. -/
theorem takeWhile_append_of_not {p : α → Bool} (h : ¬ ∀ r ∈ rows, p r = true) (more : List α) :
    (rows ++ more).takeWhile p = rows.takeWhile p := by
  induction rows with
  | nil => simp at h
  | cons r rows ih =>
    rw [List.cons_append]
    by_cases hp : p r = true
    · rw [List.takeWhile_cons_of_pos hp, List.takeWhile_cons_of_pos hp, ih]
      intro all
      exact h (List.forall_mem_cons.mpr ⟨hp, all⟩)
    · rw [List.takeWhile_cons_of_neg hp, List.takeWhile_cons_of_neg hp]

end Matching

/-! ## Writing -/

/-- Every value can be stored in the column that the schema gives it. -/
def fits (r : SessionRow) : Bool :=
  storable 256 r.fqdn && storable 80 r.owner && storable 256 r.displayname &&
    storable 256 r.vncpassword && storable 80 r.samaccountname && storable 80 r.starttime &&
    storable 40 r.status && storable 40 r.type && storable 256 r.delegatedou &&
    storable 256 r.delegatedrole && storable 256 r.gatewayfqdn

/-- The session has a start time to be printed, and its row fits. -/
def insertable (s : ProconsulSession) : Bool := s.startTime.isSome && fits (sessionRow s)

/-- The only statement that can fail is the insert of a row that does not fit. -/
def storing (s : ProconsulSession) : WriteCalls := ⟨false, !fits (sessionRow s), false⟩

/-- The table after the first write of a session. -/
theorem sessions_after_insert {s : ProconsulSession} {w : World} (addr : Option String)
    (new : ∀ r ∈ w.db.sessions, sameSession s r = false) :
    ((writeSessionToDB (storing s) s addr).run w).2.db.sessions =
      if insertable s then w.db.sessions ++ [sessionRow s] else w.db.sessions := by
  have absent : w.db.sessions.any (sameSession s) = false := List.any_eq_false.mpr (by simpa using new)
  cases able : insertable s with
  | true =>
    obtain ⟨dated, fit⟩ := Bool.and_eq_true _ _ ▸ able
    have succeeds : (storing s).succeed = true := by rw [WriteCalls.succeed, storing, fit]; rfl
    rw [sessions_after_write succeeds dated, absent]
    rfl
  | false =>
    have fails : (!fits (sessionRow s) || s.startTime.isNone) = true := by
      rw [insertable, Bool.and_eq_false_iff, Option.isSome_eq_false_iff] at able
      rcases able with undated | unfit
      · rw [undated, Bool.or_true]
      · rw [unfit, Bool.not_false, Bool.true_or]
    rw [writeSessionToDB, Prog.run_bind, run_query rfl]
    simp only [storing, absent, Bool.false_eq_true, if_false]
    rw [Prog.run_bind, insertSession, fails, run_execute rfl]
    rfl

/-- The rows of its owner after the first write of a session. -/
theorem ownRows_after_insert {s : ProconsulSession} {w : World} (addr : Option String)
    (own : sqlEq s.owner.uid s.owner.uid = true)
    (new : ∀ r ∈ w.db.sessions, sameSession s r = false) :
    ownRows s.owner ((writeSessionToDB (storing s) s addr).run w).2.db =
      if insertable s then ownRows s.owner w.db ++ [sessionRow s] else ownRows s.owner w.db := by
  rw [ownRows, sessions_after_insert addr new]
  split
  · have kept : [sessionRow s].filter (fun r => sqlEq r.owner s.owner.uid) = [sessionRow s] :=
      List.filter_cons_of_pos (p := fun r : SessionRow => sqlEq r.owner s.owner.uid) own
    rw [List.filter_append, kept]
    rfl
  · rfl

/-! ## The round trip -/

/-- The two agree on everything the page, the container and a later write use. -/
structure Agrees (s t : ProconsulSession) : Prop where
  fqdn : t.fqdn = s.fqdn
  displayName : t.displayName = s.displayName
  novncPort : t.novncPort = s.novncPort
  vncPassword : t.vncPassword = s.vncPassword
  samaccountname : t.targetUser.sAMAccountName = s.targetUser.sAMAccountName
  status : t.status = s.status
  type : t.type = s.type
  delegatedou : t.delegatedou = s.delegatedou
  delegatedrole : t.delegatedrole = s.delegatedrole
  gatewayfqdn : t.gatewayfqdn = s.gatewayfqdn

/-- Written, then read by its owner, the session is there again. -/
def Survives (cfg : Config) (load : Nat → LoadCalls) (startTime : String) (addr : Option String)
    (s : ProconsulSession) (w : World) : Prop :=
  ∃ psa w', (getAvailableSessions cfg ⟨false, load, startTime⟩ s.owner).run
      ((writeSessionToDB (storing s) s addr).run w).2 = (.ok psa, w') ∧
    ∃ t ∈ psa, Agrees s t

/-- A user session that is starting: what the reader takes every new row for. -/
structure Plain (s : ProconsulSession) : Prop where
  status : s.status = .starting
  type : s.type = some "user"
  delegatedou : s.delegatedou = none
  delegatedrole : s.delegatedrole = none

theorem readAs_sessionRow {s t : ProconsulSession} {startTime : String}
    (read : ReadAs s.owner startTime (sessionRow s) t) : Agrees s t ↔ Plain s := by
  obtain ⟨user, status, named, parsed, rfl⟩ := read
  obtain rfl : status = .starting := (Option.some.inj parsed).symm
  constructor
  · intro agrees
    exact ⟨agrees.status.symm, agrees.type.symm, agrees.delegatedou.symm, agrees.delegatedrole.symm⟩
  · intro plain
    exact ⟨rfl, rfl, rfl, rfl, named, plain.status.symm, plain.type.symm, plain.delegatedou.symm,
      plain.delegatedrole.symm, rfl⟩

/-- A session read from a row of another key does not agree. -/
theorem not_agrees_of_other {s t : ProconsulSession} {startTime : String} {r : SessionRow}
    {fqdn sam : String} (hosted : s.fqdn = some fqdn)
    (named : s.targetUser.sAMAccountName = some sam) (owned : sqlEq r.owner s.owner.uid = true)
    (other : sameSession s r = false) (read : ReadAs s.owner startTime r t) : ¬ Agrees s t := by
  intro agrees
  obtain ⟨user, status, huser, -, rfl⟩ := read
  have host : r.fqdn = some fqdn := agrees.fqdn.trans hosted
  have account : r.samaccountname = some sam := huser.symm.trans (agrees.samaccountname.trans named)
  rw [sameSession, owned, host, hosted, account, named] at other
  simp at other

theorem readable_sessionRow (s : ProconsulSession) : readable (sessionRow s) = true := rfl

/-- The reader comes to the new row exactly if every other row of the owner can be read. -/
theorem read_sessionRow_iff {s : ProconsulSession} {rows : List SessionRow}
    (fresh : sessionRow s ∉ rows) :
    sessionRow s ∈ (rows ++ [sessionRow s]).takeWhile readable ↔ ∀ r ∈ rows, readable r = true := by
  constructor
  · intro reached
    by_contra unread
    rw [takeWhile_append_of_not unread] at reached
    exact fresh ((List.takeWhile_prefix _).subset reached)
  · intro allRead
    have whole : (rows ++ [sessionRow s]).takeWhile readable = rows ++ [sessionRow s] := by
      refine List.takeWhile_eq_self_iff.mpr (fun r hr => ?_)
      rcases List.mem_append.mp hr with old | new
      · exact allRead r old
      · rw [List.mem_singleton.mp new]
        exact readable_sessionRow s
    rw [whole]
    exact List.mem_append_right _ (List.mem_singleton_self _)

/-- A session survives its storage exactly if it is a plain one that has a start
time, its values fit their columns and every other row of its owner can be read. -/
theorem session_survives_iff (cfg : Config) (load : Nat → LoadCalls) (startTime : String)
    (addr : Option String) (s : ProconsulSession) (w : World) (owner fqdn sam : String)
    (owned : s.owner.uid = some owner) (hosted : s.fqdn = some fqdn)
    (named : s.targetUser.sAMAccountName = some sam)
    (new : ∀ r ∈ w.db.sessions, sameSession s r = false) :
    Survives cfg load startTime addr s w ↔
      Plain s ∧ insertable s = true ∧ ∀ r ∈ ownRows s.owner w.db, readable r = true := by
  have own : sqlEq s.owner.uid s.owner.uid = true := by
    rw [owned]
    exact sqlEq_refl owner
  have old : ∀ r ∈ ownRows s.owner w.db, ∀ t, ReadAs s.owner startTime r t → ¬ Agrees s t := by
    intro r hr t read
    obtain ⟨stored, mine⟩ := List.mem_filter.mp hr
    exact not_agrees_of_other hosted named mine (new r stored) read
  obtain ⟨psa, hrun, read⟩ := run_getAvailableSessions cfg load startTime s.owner
    ((writeSessionToDB (storing s) s addr).run w).2
  have survives : Survives cfg load startTime addr s w ↔ ∃ t ∈ psa, Agrees s t := by
    constructor
    · rintro ⟨psa', w', hrun', found⟩
      rw [hrun] at hrun'
      cases hrun'
      exact found
    · exact fun found => ⟨psa, _, hrun, found⟩
  have absent : sessionRow s ∉ ownRows s.owner w.db := by
    intro stored
    have same : sameSession s (sessionRow s) = true := by
      rw [sameSession]
      simp [sessionRow, owned, hosted, named]
    rw [new _ (List.mem_filter.mp stored).1] at same
    cases same
  rw [ownRows_after_insert addr own new] at read
  rw [survives]
  constructor
  · rintro ⟨t, ht, agrees⟩
    obtain ⟨r, hr, hread⟩ := exists_row read ht
    -- only the new row can have been read as a session that agrees
    have fresh : r ∉ ownRows s.owner w.db := fun hold => old r hold t hread agrees
    cases hfit : insertable s with
    | false =>
      rw [hfit, if_neg (by simp)] at hr
      exact absurd ((List.takeWhile_prefix _).subset hr) fresh
    | true =>
      rw [hfit, if_pos rfl] at hr
      rcases List.mem_append.mp ((List.takeWhile_prefix _).subset hr) with hold | hnew
      · exact absurd hold fresh
      · cases List.mem_singleton.mp hnew
        exact ⟨(readAs_sessionRow hread).mp agrees, rfl, (read_sessionRow_iff absent).mp hr⟩
  · rintro ⟨plain, hfit, allRead⟩
    rw [hfit, if_pos rfl] at read
    obtain ⟨t, ht, hread⟩ := exists_session read ((read_sessionRow_iff absent).mpr allRead)
    exact ⟨t, ht, (readAs_sessionRow hread).mpr plain⟩

/-- A Domain Admin session of Pat's, just connected. -/
def domainSession : ProconsulSession where
  owner := ⟨some "pat@dom.ain", [], []⟩
  fqdn := some "dc1.dom.ain"
  novncPort := 2
  vncPassword := some "vncsecret"
  status := .connected
  targetUser := ⟨some "ab3de6fgh-eas", some "secret", some "dom.ain", none, [], true⟩
  startTime := some "2024-01-01 00:00:00"
  displayName := some "dc"
  type := some "domain"
  delegatedou := none
  delegatedrole := none
  gatewayfqdn := none

/-- It comes back as a user session that is starting. -/
theorem domain_session_forgotten :
    ¬ Survives sampleConfig (fun _ => ⟨false, false⟩) "" none domainSession World.empty := by
  rintro ⟨psa, w', hrun, t, ht, agrees⟩
  have types : ((getAvailableSessions sampleConfig ⟨false, fun _ => ⟨false, false⟩, ""⟩
      domainSession.owner).run ((writeSessionToDB (storing domainSession) domainSession none).run
        World.empty).2).1.toOption.map (List.map ProconsulSession.type) = some [some "user"] := by
    decide +kernel
  rw [hrun] at types
  have user : t.type = some "user" := by
    have mem := List.mem_map_of_mem (f := ProconsulSession.type) ht
    rw [Option.some.inj types] at mem
    exact List.mem_singleton.mp mem
  exact absurd (user.symm.trans agrees.type) (by decide)

/-- The same as a user session that is starting. -/
theorem starting_user_session_survives :
    Survives sampleConfig (fun _ => ⟨false, false⟩) "" none
      { domainSession with type := some "user", status := .starting } World.empty :=
  (session_survives_iff sampleConfig (fun _ => ⟨false, false⟩) "" none
    { domainSession with type := some "user", status := .starting } World.empty "pat@dom.ain"
    "dc1.dom.ain" "ab3de6fgh-eas" rfl rfl rfl (by simp [World.empty, Database.empty])).mpr
    ⟨⟨rfl, rfl, rfl, rfl⟩, by decide, by simp [ownRows, World.empty, Database.empty]⟩

end SessionStorage
