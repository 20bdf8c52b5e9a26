import Proconsul.Lifecycle

/-!
# One row for each session

`writeSessionToDB` looks for a row and then inserts or updates, in two
statements, and the table has no unique key. Handlers, cleanup scripts and
containers take turns between the two. What the lookup has found must still be
true when the second statement runs: then a key keeps one row, and every write
leaves exactly one row with its values. The code does nothing to make it true.

Two nulls count as the same key here, although no SQL comparison finds them.
-/

namespace SessionRows

open Program Schema Text Surroundings Hosts Accounts Sessions Handlers Cleanup Interleaving
open Lifecycle (Docker Spawned quiet_userGroups quiet_domainGroups quiet_delegatedGroups served
  conforms_gates)

/-! ## Keys -/

/-- Owner, host and account of a row, up to case. -/
def key (r : SessionRow) : Option (List Char) × Option (List Char) × Option (List Char) :=
  (r.owner.map sqlKey, r.fqdn.map sqlKey, r.samaccountname.map sqlKey)

def OneRow (w : World) : Prop := (w.db.sessions.map key).Nodup

instance (w : World) : Decidable (OneRow w) := inferInstanceAs (Decidable (List.Nodup _))

/-- None of the three is null. -/
def KeyedRow (r : SessionRow) : Prop :=
  r.owner ≠ none ∧ r.fqdn ≠ none ∧ r.samaccountname ≠ none

instance (r : SessionRow) : Decidable (KeyedRow r) :=
  inferInstanceAs (Decidable (_ ∧ _ ∧ _))

abbrev Keyed (s : ProconsulSession) : Prop := KeyedRow (sessionRow s)

theorem sqlEq_iff {a b : Option String} (given : b ≠ none) :
    sqlEq a b = true ↔ a.map sqlKey = b.map sqlKey := by
  cases b with
  | none => exact absurd rfl given
  | some y =>
    cases a with
    | none => simp [sqlEq]
    | some x => simp [sqlEq]

/-- For such a session the statements find exactly the rows of its key. -/
theorem sameSession_iff {s : ProconsulSession} (keyed : Keyed s) (r : SessionRow) :
    sameSession s r = true ↔ key r = key (sessionRow s) := by
  have owner : s.owner.uid ≠ none := keyed.1
  have fqdn : s.fqdn ≠ none := keyed.2.1
  have account : s.targetUser.sAMAccountName ≠ none := keyed.2.2
  rw [sameSession, Bool.and_eq_true, Bool.and_eq_true, sqlEq_iff owner, sqlEq_iff fqdn,
    sqlEq_iff account]
  simp only [key, sessionRow, Prod.mk.injEq]
  constructor
  · rintro ⟨⟨owner, fqdn⟩, account⟩
    exact ⟨owner, fqdn, account⟩
  · rintro ⟨owner, fqdn, account⟩
    exact ⟨⟨owner, fqdn⟩, account⟩

theorem keyed_of_sameSession {s : ProconsulSession} {r : SessionRow}
    (same : sameSession s r = true) : Keyed s := by
  rw [sameSession, Bool.and_eq_true, Bool.and_eq_true] at same
  obtain ⟨⟨owner, fqdn⟩, account⟩ := same
  have given : ∀ {a b : Option String}, sqlEq a b = true → b ≠ none := by
    intro a b eq
    obtain ⟨x, y, -, rfl, -⟩ := sqlEq_some eq
    simp
  exact ⟨given owner, given fqdn, given account⟩

theorem keyed_of_key {r r' : SessionRow} (same : key r = key r') (keyed : KeyedRow r) :
    KeyedRow r' := by
  simp only [key, Prod.mk.injEq] at same
  obtain ⟨owner, fqdn, account⟩ := same
  obtain ⟨hasOwner, hasFqdn, hasAccount⟩ := keyed
  have transfer : ∀ {a b : Option String}, a.map sqlKey = b.map sqlKey → a ≠ none → b ≠ none := by
    rintro a b eq hasA rfl
    exact hasA (Option.map_eq_none_iff.mp eq)
  exact ⟨transfer owner hasOwner, transfer fqdn hasFqdn, transfer account hasAccount⟩

/-- There is a row of the session's key. -/
def present (s : ProconsulSession) (w : World) : Bool := w.db.sessions.any (sameSession s)

theorem present_iff {s : ProconsulSession} (keyed : Keyed s) (w : World) :
    present s w = true ↔ key (sessionRow s) ∈ w.db.sessions.map key := by
  rw [present, List.any_eq_true, List.mem_map]
  constructor
  · rintro ⟨r, hr, same⟩
    exact ⟨r, hr, (sameSession_iff keyed r).mp same⟩
  · rintro ⟨r, hr, same⟩
    exact ⟨r, hr, (sameSession_iff keyed r).mpr same⟩

theorem present_congr {s s' : ProconsulSession} (keyed : Keyed s)
    (same : key (sessionRow s') = key (sessionRow s)) (w : World) : present s' w = present s w := by
  have keyed' : Keyed s' := keyed_of_key same.symm keyed
  rw [Bool.eq_iff_iff, present_iff keyed, present_iff keyed', same]

/-! ## A write -/

/-- What the statement behind the lookup does: an update if a row was found, else an insert. -/
def written (s : ProconsulSession) : Bool → World → World
  | true, w => { w with
      db := { w.db with sessions := updateWhere (sameSession s) (refreshRow s) w.db.sessions }
      trace := w.trace ++ [.sessionUpdated s.fqdn] }
  | false, w => { w with
      db := { w.db with sessions := w.db.sessions ++ [sessionRow s] }
      trace := w.trace ++ [.sessionInserted (sessionRow s)] }

theorem refresh_key (s : ProconsulSession) (r : SessionRow) : key (refreshRow s r) = key r := rfl

theorem refresh_sameSession (s : ProconsulSession) (r : SessionRow) :
    sameSession s (refreshRow s r) = sameSession s r := rfl

/-- The row has what the write was given. -/
structure Carries (s : ProconsulSession) (r : SessionRow) : Prop where
  displayname : r.displayname = s.displayName
  novncport : r.novncport = some s.novncPort
  vncpassword : r.vncpassword = s.vncPassword
  connected : r.connected = s.isConnected
  running : r.running = s.isAvailable

def LeavesOne (s : ProconsulSession) (w : World) : Prop :=
  ∃ r, w.db.sessions.filter (sameSession s) = [r] ∧ Carries s r

/-- A table without duplicates has at most one row of a session. -/
theorem filter_of_oneRow {s : ProconsulSession} (keyed : Keyed s) {rows : List SessionRow}
    (unique : (rows.map key).Nodup) :
    rows.filter (sameSession s) = [] ∨ ∃ r, rows.filter (sameSession s) = [r] := by
  have distinct : ((rows.filter (sameSession s)).map key).Nodup :=
    unique.sublist (List.Sublist.map _ List.filter_sublist)
  cases found : rows.filter (sameSession s) with
  | nil => exact .inl rfl
  | cons r rest =>
    refine .inr ⟨r, ?_⟩
    cases rest with
    | nil => rfl
    | cons r' rest =>
      have member : ∀ x ∈ r :: r' :: rest, key x = key (sessionRow s) := by
        intro x hx
        rw [← found] at hx
        exact (sameSession_iff keyed x).mp (List.mem_filter.mp hx).2
      have same : key r = key r' :=
        (member r List.mem_cons_self).trans
          (member r' (List.mem_cons_of_mem _ List.mem_cons_self)).symm
      rw [found, List.map_cons, List.map_cons, same] at distinct
      exact absurd List.mem_cons_self (List.nodup_cons.mp distinct).1

theorem leavesOne_insert {s : ProconsulSession} (keyed : Keyed s) (w : World) :
    LeavesOne s (written s false w) ↔ present s w = false := by
  have itself : sameSession s (sessionRow s) = true := (sameSession_iff keyed _).mpr rfl
  have filtered : (written s false w).db.sessions.filter (sameSession s) =
      w.db.sessions.filter (sameSession s) ++ [sessionRow s] := by
    simp only [written, List.filter_append, List.filter_cons_of_pos itself, List.filter_nil]
  rw [LeavesOne, filtered]
  constructor
  · rintro ⟨r, one, -⟩
    have none : w.db.sessions.filter (sameSession s) = [] := by
      cases old : w.db.sessions.filter (sameSession s) with
      | nil => rfl
      | cons x xs =>
        rw [old] at one
        simp at one
    exact List.any_eq_false.mpr (fun r hr => List.filter_eq_nil_iff.mp none r hr)
  · intro absent
    have none : w.db.sessions.filter (sameSession s) = [] :=
      List.filter_eq_nil_iff.mpr (fun r hr => List.any_eq_false.mp absent r hr)
    rw [none]
    exact ⟨sessionRow s, rfl, rfl, rfl, rfl, rfl, rfl⟩

theorem leavesOne_update {s : ProconsulSession} (keyed : Keyed s) {w : World} (unique : OneRow w) :
    LeavesOne s (written s true w) ↔ present s w = true := by
  have filtered : (written s true w).db.sessions.filter (sameSession s) =
      updateWhere (sameSession s) (refreshRow s) (w.db.sessions.filter (sameSession s)) :=
    filter_updateWhere (refresh_sameSession s) w.db.sessions
  have member : ∀ {x}, w.db.sessions.filter (sameSession s) = [x] →
      x ∈ w.db.sessions ∧ sameSession s x = true := by
    intro x found
    have listed : x ∈ w.db.sessions.filter (sameSession s) := by
      rw [found]
      exact List.mem_singleton_self x
    exact List.mem_filter.mp listed
  rw [LeavesOne, filtered]
  constructor
  · rintro ⟨r, one, -⟩
    rcases filter_of_oneRow keyed unique with none | ⟨x, found⟩
    · rw [none] at one
      cases one
    · exact List.any_eq_true.mpr ⟨x, member found⟩
  · intro found
    rcases filter_of_oneRow keyed unique with none | ⟨x, one⟩
    · obtain ⟨r, hr, same⟩ := List.any_eq_true.mp found
      exact absurd same (List.filter_eq_nil_iff.mp none r hr)
    · have updated : updateWhere (sameSession s) (refreshRow s) [x] = [refreshRow s x] := by
        simp [updateWhere, (member one).2]
      rw [one, updated]
      exact ⟨refreshRow s x, rfl, rfl, rfl, rfl, rfl, rfl⟩

/-- A write leaves its one row exactly when what its lookup has found is still true. -/
theorem leavesOne_iff {s : ProconsulSession} (keyed : Keyed s) {w : World} (unique : OneRow w)
    (found : Bool) : LeavesOne s (written s found w) ↔ present s w = found := by
  cases found with
  | true => exact leavesOne_update keyed unique
  | false => exact leavesOne_insert keyed w

theorem keys_update (s : ProconsulSession) (w : World) :
    (written s true w).db.sessions.map key = w.db.sessions.map key :=
  map_updateWhere (refresh_key s) w.db.sessions

theorem oneRow_insert {s : ProconsulSession} {w : World} (unique : OneRow w)
    (new : key (sessionRow s) ∉ w.db.sessions.map key) : OneRow (written s false w) := by
  have keys : (written s false w).db.sessions.map key =
      w.db.sessions.map key ++ [key (sessionRow s)] := List.map_append
  rw [OneRow, keys, List.nodup_append]
  refine ⟨unique, List.nodup_singleton _, ?_⟩
  rintro k hk _ hlast rfl
  rw [List.mem_singleton] at hlast
  exact new (hlast ▸ hk)

/-- The two statements tell from what they do which session they write. -/
theorem written_inj {s s' : ProconsulSession} {found found' : Bool} (keyed : Keyed s)
    (same : ∀ w, written s found w = written s' found' w) :
    found' = found ∧ key (sessionRow s') = key (sessionRow s) := by
  have traces : ∀ w, (written s found w).trace = (written s' found' w).trace :=
    fun w => congrArg World.trace (same w)
  cases found with
  | false =>
    cases found' with
    | false =>
      have effects := traces World.empty
      simp only [written, World.empty, List.nil_append, List.cons.injEq, Effect.sessionInserted.injEq,
        and_true] at effects
      exact ⟨rfl, by rw [effects]⟩
    | true =>
      have effects := traces World.empty
      simp [written, World.empty] at effects
  | true =>
    cases found' with
    | false =>
      have effects := traces World.empty
      simp [written, World.empty] at effects
    | true =>
      -- In a table with one row of `s`, whose status is still null, the update shows.
      let table : World :=
        { World.empty with db := { Database.empty with sessions := [sessionRow s] } }
      have rows : updateWhere (sameSession s) (refreshRow s) [sessionRow s] =
          updateWhere (sameSession s') (refreshRow s') [sessionRow s] :=
        congrArg (fun w => w.db.sessions) (same table)
      have itself : sameSession s (sessionRow s) = true := (sameSession_iff keyed _).mpr rfl
      have other : sameSession s' (sessionRow s) = true := by
        by_contra differ
        rw [updateWhere, updateWhere, List.map_singleton, List.map_singleton, if_pos itself,
          if_neg differ] at rows
        have status := congrArg SessionRow.status (List.singleton_inj.mp rows)
        cases status
      have keyed' : Keyed s' := keyed_of_sameSession other
      exact ⟨rfl, ((sameSession_iff keyed' _).mp other).symm⟩

/-! ## Writers among other programs -/

def ofSessions : Effect → Bool
  | .sessionInserted _ | .sessionUpdated _ => true
  | _ => false

/-- Away from the writes rows may go or change, but none gets a new key. -/
structure Aside (w w' : World) : Prop where
  keys : (w'.db.sessions.map key).Sublist (w.db.sessions.map key)
  trace : ∃ effects, w'.trace = w.trace ++ effects ∧ ∀ e ∈ effects, ofSessions e = false

/-- `writing` stands between the lookup and the statement it decides on. -/
inductive Phase where
  | idle
  | writing (s : ProconsulSession) (found : Bool)

inductive Move : Phase → World → World → Phase → Prop where
  | aside {w w' : World} (h : Aside w w') : Move .idle w w' .idle
  | look (s : ProconsulSession) (w : World) : Move .idle w w (.writing s (present s w))
  | write (s : ProconsulSession) (found : Bool) (w : World) :
      Move (.writing s found) w (written s found w) .idle

/-- The program begins and ends away from a write. -/
def Settles {α : Type} (p : Run α) : Prop := Conforms Move (fun _ ph => ph = .idle) p .idle

theorem aside_of_rows {w w' : World} (rows : w'.db.sessions = w.db.sessions)
    (effects : List Effect) (trace : w'.trace = w.trace ++ effects)
    (other : ∀ e ∈ effects, ofSessions e = false) : Aside w w' := by
  refine ⟨?_, effects, trace, other⟩
  rw [rows]

theorem aside_of_silent {w w' : World} (rows : w'.db.sessions = w.db.sessions)
    (trace : w'.trace = w.trace) : Aside w w' :=
  aside_of_rows rows [] (by rw [trace, List.append_nil]) (by simp)

theorem aside_refl (w : World) : Aside w w := aside_of_silent rfl rfl

theorem aside_quiet : Quiet Aside := by
  intro w accounts log admins tokens effects quiet
  refine aside_of_rows rfl effects rfl (fun e he => ?_)
  have kind := quiet e he
  cases e with
  | sessionInserted | sessionUpdated => cases kind
  | accountCreated | accountDeleted | groupAdded | daStored | portReserved | containerCreated |
    containerStarted | cleaned => rfl

theorem aside_engine (w : World) (engine : Engine) (effects : List Effect)
    (ofEngine : ∀ e ∈ effects, Effect.ofEngine e = true) :
    Aside w { w with engine := engine, trace := w.trace ++ effects } := by
  refine aside_of_rows rfl effects rfl (fun e he => ?_)
  have kind := ofEngine e he
  cases e with
  | sessionInserted | sessionUpdated => cases kind
  | accountCreated | accountDeleted | groupAdded | daStored | portReserved | containerCreated |
    containerStarted | cleaned => rfl

theorem settles_bind {α β : Type} {p : Run α} {f : α → Run β} (hp : Settles p)
    (hf : ∀ a, Settles (f a)) : Settles (p >>= f) := by
  refine conforms_bind hp ?_ (fun _ _ h => h)
  rintro a ph rfl
  exact hf a

theorem settles_of_steps {α : Type} {p : Run α} (hp : p.Steps Aside) : Settles p := by
  have neutral : ∀ w w', Aside w w' → Move .idle w w' .idle := fun _ _ h => .aside h
  exact conforms_weaken (conforms_of_steps neutral hp (Prog.returns_any p)) (fun _ _ h => h.1)

theorem settles_pure {α : Type} (a : α) : Settles (pure a : Run α) := rfl

theorem settles_aside {α β : Type} {p : Run α} {f : α → Run β} (hp : p.Steps Aside)
    (hf : ∀ a, Settles (f a)) : Settles (p >>= f) :=
  settles_bind (settles_of_steps hp) hf

/-! ### Handlers -/

/-- The statement after the lookup writes nothing: it fails, or the start time to insert is missing. -/
def abandons (fails : Bool) (s : ProconsulSession) (found : Bool) : Bool :=
  fails || (!found && s.startTime.isNone)

/-- The phase in which a lookup leaves the program. -/
def looked (fails : Bool) (s : ProconsulSession) : Except Exn Bool → Phase → Prop
  | .ok found, ph => ph = if abandons fails s found then .idle else .writing s found
  | .error _, ph => ph = .idle

theorem conforms_statement (fails : Bool) (s : ProconsulSession) (found : Bool) :
    Conforms Move (fun _ ph => ph = .idle)
      (if found then updateSession fails s else insertSession fails s)
      (if abandons fails s found then .idle else .writing s found) := by
  have failing : ∀ p : Run Unit, p = Prog.atom (fun w => (.error .sqlException, w)) →
      Conforms Move (fun _ ph => ph = .idle) p .idle := by
    rintro p rfl w
    exact ⟨.idle, .aside (aside_refl w), rfl⟩
  have writing : ∀ p : Run Unit, p = Prog.atom (fun w => (.ok (), written s found w)) →
      Conforms Move (fun _ ph => ph = .idle) p (.writing s found) := by
    rintro p rfl w
    exact ⟨.idle, .write s found w, rfl⟩
  cases found with
  | true =>
    cases fails with
    | true => exact failing _ rfl
    | false => exact writing _ rfl
  | false =>
    have insert : insertSession fails s = execute (abandons fails s false) .sessions [] (fun db =>
        ({ db with sessions := db.sessions ++ [sessionRow s] },
          [.sessionInserted (sessionRow s)])) := by
      simp [insertSession, abandons]
    rw [insert]
    cases abandons fails s false with
    | true => exact failing _ rfl
    | false => exact writing _ rfl

theorem settles_writeSessionToDB (c : WriteCalls) (s : ProconsulSession) (addr : Option String) :
    Settles (writeSessionToDB c s addr) := by
  refine conforms_bind (Q := looked c.write s) (conforms_atom (fun w => ?_)) ?_ (fun _ _ h => h)
  · dsimp only
    split
    · exact ⟨.idle, .aside (aside_refl w), rfl⟩
    · cases abandoned : abandons c.write s (present s w) with
      | true => exact ⟨.idle, .aside (aside_refl w), (if_pos abandoned).symm⟩
      | false =>
        exact ⟨.writing s (present s w), .look s w, (if_neg (ne_true_of_eq_false abandoned)).symm⟩
  · rintro found ph rfl
    have log : ∀ event, Settles (audit c.audit event (some (s.owner.uid.getD "NoUser")) s.fqdn
        s.targetUser.sAMAccountName none addr) := fun event =>
      settles_of_steps (steps_audit aside_quiet.logs _ _ _ _ _ _ _)
    have behind : ∀ event ph, ph = Phase.idle → Conforms Move (fun _ ph => ph = .idle)
        (audit c.audit event (some (s.owner.uid.getD "NoUser")) s.fqdn
          s.targetUser.sAMAccountName none addr) ph := by
      rintro event ph rfl
      exact log event
    have statement := conforms_statement c.write s found
    cases found with
    | true => exact conforms_bind statement (fun _ ph h => behind _ ph h) (fun _ _ h => h)
    | false => exact conforms_bind statement (fun _ ph h => behind _ ph h) (fun _ _ h => h)

theorem steps_port (c : PortCalls) (s : ProconsulSession) : (getVncPortNumber c s).Steps Aside := by
  refine steps_getVncPortNumber aside_refl (fun w row => ?_) c s
  exact aside_of_rows rfl [.portReserved row.portnum] rfl (by simp [ofSessions])

theorem settles_openSession (c : OpenCalls) (s : ProconsulSession) (addr : Option String) :
    Settles (openSession c s addr) := by
  refine settles_aside (steps_port c.port s) (fun port => ?_)
  refine settles_aside (steps_addGatewayToSession aside_quiet.logs _ _) (fun s' => ?_)
  exact settles_bind (settles_writeSessionToDB _ _ _) (fun _ => settles_pure _)

theorem settles_launch (cfg : Config) (c : LaunchCalls) (size : Image) (s : ProconsulSession)
    (addr : Option String) : Settles (launch cfg c size s addr) := by
  refine settles_aside (steps_start aside_refl aside_engine cfg c.container size s) (fun _ => ?_)
  refine settles_bind (settles_writeSessionToDB _ _ _) (fun _ => ?_)
  refine settles_aside ?_ (fun _ => settles_pure _)
  rw [awaitReady]
  split
  · exact Prog.steps_pure _
  · exact Prog.steps_throwing _

theorem settles_finishSession (cfg : Config) (c : FinishCalls) (size : Image)
    (s : ProconsulSession) (u : Option ADUser) (addr : Option String) :
    Settles (finishSession cfg c size s u addr) := by
  refine settles_aside (steps_deref u) (fun u' => ?_)
  exact settles_bind (settles_writeSessionToDB _ _ _) (fun _ => settles_launch cfg c.launch size _ addr)

theorem settles_gated {gs : List Gate} (tokens : ∀ g ∈ gs, g.Steps OnlyTokens)
    {f : Option Page → Run Page} (stopped : ∀ page, f (some page) = pure page)
    (passed : Settles (f none)) : Settles (inOrder gs >>= f) := by
  have neutral : ∀ w w', OnlyTokens w w' → Move .idle w w' .idle :=
    fun _ _ only => .aside (aside_quiet.onlyTokens only)
  exact conforms_gates (Q := fun _ ph => ph = Phase.idle) neutral (fun _ => rfl) tokens stopped passed

theorem settles_withAccount {cfg : Config} {c : CreateCalls} {au : Option AuthUser}
    {gs : List Gate} (tokens : ∀ g ∈ gs, g.Steps OnlyTokens) {body : ADUser → Run Page}
    (hbody : ∀ u, Settles (body u)) : Settles (withAccount cfg c au (inOrder gs) body) := by
  refine settles_gated tokens (fun _ => rfl) ?_
  refine settles_aside (quiet_createRandomizedADUser aside_quiet cfg c au) (fun o => ?_)
  exact settles_aside (steps_deref o) hbody

theorem settles_handleUserSessionPost (cfg : Config) (c : UserCalls) (req : Request)
    (form : UserSessionRequest) : Settles (handleUserSessionPost cfg c req form) := by
  refine settles_withAccount (onlyTokens_userGates c req form) (fun u => ?_)
  refine settles_aside (steps_deref _) (fun displayName => ?_)
  refine settles_aside (steps_deref _) (fun target => ?_)
  refine settles_bind (settles_openSession _ _ _) (fun s => ?_)
  refine settles_aside (quiet_userGroups aside_quiet cfg c.groups _ _ u _) (fun o => ?_)
  exact settles_finishSession cfg c.finish _ s o _

theorem settles_handleStaticSessionPost (cfg : Config) (c : StaticCalls) (req : Request)
    (form : StaticUserSessionRequest) : Settles (handleStaticSessionPost cfg c req form) := by
  refine settles_gated (onlyTokens_staticGates c req form) (fun _ => rfl) ?_
  refine settles_aside (quiet_getStaticADUser aside_quiet _ _ _ _ _) (fun u => ?_)
  refine settles_aside (steps_deref _) (fun displayName => ?_)
  refine settles_aside (steps_deref _) (fun target => ?_)
  exact settles_bind (settles_openSession _ _ _) (fun s => settles_launch cfg c.launch _ s _)

theorem settles_handleDomainAdminPost (cfg : Config) (c : DomainCalls) (req : Request)
    (form : DomainAdminRequest) : Settles (handleDomainAdminPost cfg c req form) := by
  refine settles_aside (steps_deref _) (fun target => ?_)
  refine settles_aside (steps_deref _) (fun displayName => ?_)
  refine settles_withAccount (onlyTokens_domainGates c req form _) (fun u => ?_)
  refine settles_bind (settles_openSession _ _ _) (fun s => ?_)
  refine settles_aside (quiet_domainGroups aside_quiet cfg c _ _ u _) (fun r => ?_)
  cases r with
  | inl page => exact settles_pure page
  | inr o => exact settles_finishSession cfg c.finish _ s o _

theorem settles_handleDelegatedAdminPost (cfg : Config) (c : DelegatedCalls) (req : Request)
    (form : DelegatedAdminRequest) : Settles (handleDelegatedAdminPost cfg c req form) := by
  refine settles_aside (steps_deref _) (fun host => ?_)
  refine settles_aside (steps_deref _) (fun displayName => ?_)
  refine settles_withAccount (onlyTokens_delegatedGates c req form _) (fun u => ?_)
  refine settles_bind (settles_openSession _ _ _) (fun s => ?_)
  refine settles_aside (quiet_delegatedGroups aside_quiet cfg c _ _ _ u _) (fun r => ?_)
  cases r with
  | inl page => exact settles_pure page
  | inr o => exact settles_finishSession cfg c.finish _ s o _

theorem settles_handleReconnectPost (cfg : Config) (c : ReconnectCalls) (req : Request)
    (form : ReconnectRequest) : Settles (handleReconnectPost cfg c req form) := by
  refine settles_gated (onlyTokens_reconnectGates c req form) (fun _ => rfl) ?_
  refine settles_aside ((reads_getAvailableSessions _ _ _).steps aside_refl) (fun psa => ?_)
  cases chooseSession req.authUser form.targetFQDN psa with
  | none => exact settles_pure _
  | some s =>
    refine settles_aside (steps_port c.port s) (fun port => ?_)
    refine settles_aside (quiet_setRandomADPassword aside_quiet _ _ _) (fun u => ?_)
    exact settles_bind (settles_writeSessionToDB _ _ _)
      (fun _ => settles_launch cfg c.launch _ _ _)

/-! ### Cleanup -/

theorem aside_script (adbase : String) (now : Int) (c : Container) :
    PermitsScript Aside adbase now c where
  auditLine _ _ := aside_of_silent rfl rfl
  deleteSessions _ :=
    ⟨List.Sublist.map key List.filter_sublist, [.cleaned c], rfl, by simp [ofSessions]⟩
  disconnectSessions w := by
    have keys : (disconnectSessions c w).db.sessions.map key = w.db.sessions.map key := by
      apply map_updateWhere
      intro r
      rfl
    refine ⟨?_, [.cleaned c], rfl, by simp [ofSessions]⟩
    rw [keys]
  deletePort _ := aside_of_silent rfl rfl
  deleteAccount _ := aside_of_rows rfl [.cleaned c] rfl (by simp [ofSessions])
  endAdmins _ := aside_of_silent rfl rfl
  removeContainer _ := aside_of_silent rfl rfl

theorem settles_cleanup (adbase : String) (calls : ScriptCalls) : Settles (cleanup adbase calls) := by
  have snapshots : (snapshot calls).Steps Aside := Prog.steps_atom (fun _ => aside_of_silent rfl rfl)
  refine settles_aside snapshots (fun stopped => ?_)
  exact settles_of_steps (Prog.steps_forM (fun c =>
    steps_script aside_refl (aside_script adbase calls.now c)) stopped)

theorem settles_spawned {cfg : Config} {adbase : String} {p : Run Unit}
    (spawned : Spawned cfg adbase p) : Settles p := by
  have page : ∀ {q : Run Page}, Settles q → Settles (served q) := fun hq =>
    settles_bind hq (fun _ => settles_pure _)
  cases spawned with
  | user c req form => exact page (settles_handleUserSessionPost cfg c req form)
  | static c req form => exact page (settles_handleStaticSessionPost cfg c req form)
  | domain c req form => exact page (settles_handleDomainAdminPost cfg c req form)
  | delegated c req form => exact page (settles_handleDelegatedAdminPost cfg c req form)
  | reconnect c req form => exact page (settles_handleReconnectPost cfg c req form)
  | cleanup calls => exact settles_cleanup adbase calls

/-! ## Runs in which lookups stay true -/

/-- The next step is the statement of a write whose lookup has answered `found`. -/
def Writes (s : ProconsulSession) (found : Bool) (p : Run Unit) : Prop :=
  ∃ next, p = .step (written s found) next

def insertedRow : Effect → Option SessionRow
  | .sessionInserted row => some row
  | _ => none

/-- A row that no lookup can find, because of a null, is not inserted a second time. -/
def NullsNew (w w' : World) : Prop :=
  ∀ row ∈ (newEffects w w').filterMap insertedRow, ¬ KeyedRow row →
    key row ∉ w.db.sessions.map key

instance : DecidableRel NullsNew := fun w w' =>
  inferInstanceAs (Decidable (∀ row ∈ (newEffects w w').filterMap insertedRow, _ → _))

/-- While a program stands between lookup and write, no other step lets the
first row of its session appear or the last one disappear. -/
structure Undisturbed (P P' : Pool World Exn Unit) : Prop where
  waiting : ∀ (i : Nat) p s found, P.threads[i]? = some p → P'.threads[i]? = some p →
    Writes s found p → Keyed s → present s P'.shared = present s P.shared
  nulls : NullsNew P.shared P'.shared

/-- What a program between lookup and write relies on. -/
def Relies : Phase → World → Prop
  | .idle, _ => True
  | .writing s found, w => Keyed s → present s w = found

theorem oneRow_move {w w' : World} {ph ph' : Phase} (unique : OneRow w) (relies : Relies ph w)
    (move : Move ph w w' ph') (nulls : NullsNew w w') : OneRow w' ∧ Relies ph' w' := by
  cases move with
  | aside h => exact ⟨unique.sublist h.keys, trivial⟩
  | look s => exact ⟨unique, fun _ => rfl⟩
  | write s found =>
    refine ⟨?_, trivial⟩
    cases found with
    | true =>
      rw [OneRow, keys_update]
      exact unique
    | false =>
      apply oneRow_insert unique
      by_cases keyed : Keyed s
      · rw [← present_iff keyed, relies keyed]
        simp
      · have logged : newEffects w (written s false w) = [.sessionInserted (sessionRow s)] :=
          newEffects_of_append rfl
        apply nulls (sessionRow s) ?_ keyed
        rw [logged]
        exact List.mem_singleton_self _

/-- A program in phase `writing` is about to write. -/
theorem writes_of_phase {p : Run Unit} {s : ProconsulSession} {found : Bool}
    (conf : Conforms Move (fun _ ph => ph = .idle) p (.writing s found)) : Writes s found p := by
  cases p with
  | done r => cases conf
  | step update next =>
    have same : update = written s found := by
      funext w
      obtain ⟨ph', move, -⟩ := conf w
      generalize update w = w' at move
      cases move
      rfl
    exact ⟨next, by rw [same]⟩

/-- A program that is about to write is in such a phase, for the same key. -/
theorem relies_of_writes {p : Run Unit} {s : ProconsulSession} {found : Bool} {ph : Phase} {w : World}
    (writes : Writes s found p) (keyed : Keyed s)
    (conf : Conforms Move (fun _ ph => ph = .idle) p ph) (relies : Relies ph w) :
    present s w = found := by
  obtain ⟨next, rfl⟩ := writes
  cases ph with
  | idle =>
    obtain ⟨ph', move, -⟩ := conf w
    have logged : ∃ e, (written s found w).trace = w.trace ++ [e] ∧ ofSessions e = true := by
      cases found with
      | true => exact ⟨_, rfl, rfl⟩
      | false => exact ⟨_, rfl, rfl⟩
    obtain ⟨e, trace, kind⟩ := logged
    generalize written s found w = w' at move trace
    cases move with
    | aside h =>
      obtain ⟨effects, trace', other⟩ := h.trace
      rw [trace'] at trace
      obtain rfl : effects = [e] := List.append_cancel_left trace
      rw [other e (List.mem_singleton_self e)] at kind
      cases kind
    | look s' => simp at trace
  | writing s' found' =>
    have same : ∀ w, written s found w = written s' found' w := by
      intro w
      obtain ⟨ph', move, -⟩ := conf w
      generalize written s found w = w' at move
      cases move
      rfl
    obtain ⟨rfl, keys⟩ := written_inj keyed same
    have keyed' : Keyed s' := keyed_of_key keys.symm keyed
    rw [← present_congr keyed keys w]
    exact relies keyed'

theorem docker_sessions {w w' : World} (moved : Docker w w') : w'.db.sessions = w.db.sessions := by
  cases moved with
  | launch up => rfl
  | exit up retval => rfl

theorem relies_of_run {cfg : Config} {adbase : String} {start : World} (unique : OneRow start)
    {P : Pool World Exn Unit} (run : Watched (Spawned cfg adbase) Docker Undisturbed start P) :
    OneRow P.shared ∧ ∀ (i : Nat) p, P.threads[i]? = some p →
      ∃ ph, Conforms Move (fun _ ph => ph = .idle) p ph ∧ Relies ph P.shared := by
  refine watched_invariant OneRow Relies (fun _ _ => True) (fun _ => settles_spawned) unique
    (fun _ => trivial) ?_ ?_ ?_ run
  · intro P P' ph ph' unique relies move condition
    obtain ⟨unique', relies'⟩ := oneRow_move unique relies move condition.nulls
    exact ⟨unique', relies', trivial⟩
  · intro w w' unique moved
    rw [OneRow, docker_sessions moved]
    exact ⟨unique, trivial⟩
  · intro P P' i p ph before after conf relies _ condition
    refine ⟨ph, conf, ?_⟩
    cases ph with
    | idle => trivial
    | writing s found =>
      intro keyed
      rw [condition.waiting i p s found before after (writes_of_phase conf) keyed]
      exact relies keyed

/-- Where lookups stay true, a key has one row at most, and a write leaves exactly one row of its
session, with the values it was given. -/
theorem one_row_per_session (cfg : Config) (adbase : String) {start : World} (unique : OneRow start)
    {P : Pool World Exn Unit} (run : Watched (Spawned cfg adbase) Docker Undisturbed start P) :
    OneRow P.shared ∧ ∀ (i : Nat) p s found, P.threads[i]? = some p → Writes s found p →
      Keyed s → LeavesOne s (P.turn i).shared := by
  obtain ⟨now, phases⟩ := relies_of_run unique run
  refine ⟨now, ?_⟩
  intro i p s found turn writes keyed
  obtain ⟨ph, conf, relies⟩ := phases i p turn
  have still : present s P.shared = found := relies_of_writes writes keyed conf relies
  obtain ⟨next, rfl⟩ := writes
  have moved : (P.turn i).shared = written s found P.shared := by
    rw [Pool.turn, turn]
  rw [moved]
  exact (leavesOne_iff keyed now found).mpr still

/-- Nothing else touches the table by insert or update of a session. -/
theorem writes_of_logged {cfg : Config} {adbase : String} {start : World} (unique : OneRow start)
    {P : Pool World Exn Unit} (run : Watched (Spawned cfg adbase) Docker Undisturbed start P)
    {i : Nat} {e : Effect} (logged : e ∈ newEffects P.shared (P.turn i).shared)
    (kind : ofSessions e = true) : ∃ p s found, P.threads[i]? = some p ∧ Writes s found p := by
  obtain ⟨-, phases⟩ := relies_of_run unique run
  rw [Pool.turn] at logged
  cases turn : P.threads[i]? with
  | none =>
    rw [turn, newEffects_of_same rfl] at logged
    cases logged
  | some p =>
    obtain ⟨ph, conf, -⟩ := phases i p turn
    cases ph with
    | writing s found => exact ⟨p, s, found, rfl, writes_of_phase conf⟩
    | idle =>
      cases p with
      | done r =>
        rw [turn, newEffects_of_same rfl] at logged
        cases logged
      | step update next =>
        rw [turn] at logged
        obtain ⟨ph', move, -⟩ := conf P.shared
        dsimp only at logged
        generalize update P.shared = w' at move logged
        cases move with
        | aside h =>
          obtain ⟨effects, trace, other⟩ := h.trace
          rw [newEffects_of_append trace] at logged
          rw [other e logged] at kind
          cases kind
        | look s =>
          rw [newEffects_of_same rfl] at logged
          cases logged

/-! ## Runs -/

/-- A step that leaves only ended programs in place disturbs none. -/
theorem undisturbed_calm {P P' : Pool World Exn Unit} (ended : ∀ (i : Nat) p,
    P.threads[i]? = some p → P'.threads[i]? = some p → ∃ r, p = .done r)
    (nulls : NullsNew P.shared P'.shared) : Undisturbed P P' := by
  refine ⟨?_, nulls⟩
  rintro i p s found before after ⟨next, rfl⟩ keyed
  obtain ⟨r, hr⟩ := ended i _ before after
  cases hr

def patOpensPool : Pool World Exn Unit := ⟨sampleSite, [Lifecycle.patOpens "ab3de6fgh-eas"]⟩

/-- Pat's session is inserted once and updated twice. -/
theorem opened_session_one_row :
    OneRow ((List.replicate 30 0).foldl Pool.turn patOpensPool).shared ∧
      ((List.replicate 30 0).foldl Pool.turn patOpensPool).shared.db.sessions.length = 1 := by
  have started : Watched (Spawned sampleConfig sampleConfig.targetbase) Docker Undisturbed sampleSite
      patOpensPool := by
    refine Relation.ReflTransGen.single ⟨.spawn (.user _ _ _), ?_, ?_⟩
    · intro i p s found before
      cases before
    · change NullsNew sampleSite sampleSite
      decide
  have alone : ∀ (j : Nat) q, j ≠ 0 → patOpensPool.threads[j]? = some q → ∃ r, q = .done r := by
    rintro (_ | j) q other there
    · exact absurd rfl other
    · cases there
  have run := watched_turns (fun _ _ => undisturbed_calm) 0 30 alone started (by decide +kernel)
  exact ⟨(one_row_per_session sampleConfig sampleConfig.targetbase (by decide) run).1,
    by decide +kernel⟩

/-- Pat has a standing account on her host. -/
def staticSite : World :=
  { sampleSite with
    db := { sampleSite.db with
      staticHost := [⟨some "pat@dom.ain", some "host1.dom.ain", some "svc1"⟩] }
    ad := { sampleSite.ad with
      accounts := [⟨"svc1", "cn=svc1,ou=static,ou=proconsul,dc=dom,dc=ain", some "old", 512, [],
        none, none⟩] } }

def staticForm : StaticUserSessionRequest := ⟨some "host1.dom.ain", some "host1", some "T1"⟩

def staticCalls : StaticCalls where
  app := .noOutage
  hosts := false
  token := .noOutage
  vncPassword := "vncsecret"
  mapping := false
  password := .noOutage "secret"
  opening := .noOutage
  launch := .noOutage

def patSubmits : Run Unit :=
  served (handleStaticSessionPost sampleConfig staticCalls sampleRequest staticForm)

/-- The form is submitted twice, and the second lookup comes before the first insert. -/
theorem double_submit_two_rows :
    OneRow staticSite ∧ ∃ P : Pool World Exn Unit,
      Watched (Spawned sampleConfig sampleConfig.targetbase) Docker (fun _ _ => True) staticSite P ∧
        ¬ OneRow P.shared := by
  let submitted : Pool World Exn Unit := ⟨staticSite, [patSubmits, patSubmits]⟩
  let schedule := List.replicate 11 0 ++ List.replicate 11 1 ++ [0, 1]
  have asked : Reachable (Spawned sampleConfig sampleConfig.targetbase) Docker (fun _ _ => True)
      staticSite submitted :=
    reachable_spawn (reachable_spawn .refl (.static _ _ _) trivial) (.static _ _ _) trivial
  have reach := reachable_turns asked (submitted.along_true schedule)
  exact ⟨by decide, schedule.foldl Pool.turn submitted, reach, by decide +kernel⟩

end SessionRows
