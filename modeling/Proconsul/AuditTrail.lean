import Proconsul.Lifecycle
import Proconsul.Checkout

/-!
# What the audit log tells

`audit` hands five strings and an event to an insert whose exception is
swallowed, into columns of fixed width. Steps of the session handlers, of the
two checkout handlers and of the sweep are recorded with the states before and
after them, and each deed among them is looked up in the table. Events of
deletions and of the two buttons are longer than their column, and an account
created for a checkout is logged in the place of its user. What remains is told
in full as long as the strings fit.

The hour of a row matters too: the pattern of `writeAuditLog` prints 24 for the
hour after midnight, which is no time to the database.
-/

namespace AuditTrail

open Program Schema Text Surroundings Hosts Accounts Sessions Handlers Checkout Interleaving
open Lifecycle (served)

/-! ## The table -/

/-- The widths of `audit_log`. -/
def fits (r : AuditRow) : Bool :=
  storable 80 r.eppn && storable 12 r.event && storable 80 r.targetuser && storable 120 r.targethost &&
    storable 240 r.targetgroup && storable 80 r.clientip

/-- The hour is one of a day. -/
def timely (r : AuditRow) : Bool := r.timestamp.hour < 24

def cut (width : Nat) (value : Option String) : Option String :=
  value.map (fun s => String.ofList ((s.toList.take width).map (fun c => if latin1 c then c else '?')))

/-- What a value becomes in a database that does not insist; a wrong time becomes zero. -/
def adjusted (r : AuditRow) : AuditRow where
  timestamp := if timely r then r.timestamp else ⟨"0000-00-00", 0, "00:00"⟩
  eppn := cut 80 r.eppn
  event := cut 12 r.event
  targetuser := cut 80 r.targetuser
  targethost := cut 120 r.targethost
  targetgroup := cut 240 r.targetgroup
  clientip := cut 80 r.clientip

/-- What becomes of an insert: a value that its column cannot take is refused in strict mode, and
adjusted otherwise. -/
def stored (strict : Bool) (r : AuditRow) : Option AuditRow :=
  if fits r && timely r then some r else if strict then none else some (adjusted r)

def table (strict : Bool) (inserts : List AuditRow) : List AuditRow := inserts.filterMap (stored strict)

/-! ## Deeds -/

inductive Deed where
  | created (sam : String)
  | deleted (sam : String)
  | grouped (sam : String)
  | activated (sam : Option String)
  | deactivated (sam : Option String)
  | extended (sam : Option String)
  | expired (sam : Option String)
  deriving DecidableEq, Repr

/-- The string that the source passes to `audit`. -/
def Deed.event : Deed → String
  | .created _ => "createADUser"
  | .deleted sam => "Deleted ad user " ++ sam
  | .grouped _ => "addGroup"
  | .activated _ => "makeActiveDA"
  | .deactivated _ => "removeActiveDA"
  | .extended _ => "extendCheckedOutCredLifetime"
  | .expired _ => "expireCheckedOutCred"

def Deed.account : Deed → Option String
  | .created sam | .deleted sam | .grouped sam => some sam
  | .activated sam | .deactivated sam | .extended sam | .expired sam => sam

def deedOf : Effect → Option Deed
  | .accountCreated sam => some (.created sam)
  | .accountDeleted sam => some (.deleted sam)
  | .groupAdded sam _ => some (.grouped sam)
  | .daStored sam => some (.activated sam)
  | _ => none

/-- A checkout whose `expiretime` has moved. -/
def moved (r : CheckoutRow × CheckoutRow) : Option Deed :=
  match r.1.expiretime, r.2.expiretime with
  | some e, some e' =>
    if e < e' then some (.extended r.1.aduser)
    else if e' < e then some (.expired r.1.aduser)
    else none
  | _, _ => none

def disabled (r : ActiveDomainAdminRow × ActiveDomainAdminRow) : Option Deed :=
  if r.1.disabletime = r.2.disabletime then none else some (.deactivated r.1.samaccountname)

def movedCheckouts (w w' : World) : List Deed := (w.db.checkout.zip w'.db.checkout).filterMap moved

/-- What a step has done. -/
def deeds (w w' : World) : List Deed :=
  (newEffects w w').filterMap deedOf ++ movedCheckouts w w' ++
    (w.db.activeDomainAdmins.zip w'.db.activeDomainAdmins).filterMap disabled

def newRows (w w' : World) : List AuditRow := w'.db.auditLog.drop w.db.auditLog.length

/-- The row names the deed and the account. -/
def Tells (row : AuditRow) (d : Deed) : Prop :=
  row.event = some d.event ∧ row.targetuser = d.account

instance (row : AuditRow) (d : Deed) : Decidable (Tells row d) :=
  inferInstanceAs (Decidable (row.event = some d.event ∧ row.targetuser = d.account))

theorem length_cut {width : Nat} {value : Option String} {s : String} (h : cut width value = some s) :
    s.length ≤ width := by
  obtain ⟨whole, -, rfl⟩ := Option.map_eq_some_iff.mp h
  rw [String.length_ofList, List.length_map, List.length_take]
  omega

theorem length_storable {width : Nat} {value : Option String} {s : String}
    (h : storable width value = true) (given : value = some s) : s.length ≤ width := by
  subst given
  exact of_decide_eq_true (Bool.and_eq_true _ _ ▸ h).1

/-- A value that fits is not changed. -/
theorem cut_of_storable {width : Nat} {value : Option String} (h : storable width value = true) :
    cut width value = value := by
  cases value with
  | none => rfl
  | some s =>
    obtain ⟨short, known⟩ := Bool.and_eq_true _ _ ▸ h
    have whole : s.toList.take width = s.toList :=
      List.take_of_length_le (String.length_toList (s := s) ▸ of_decide_eq_true short)
    have same : ∀ c ∈ s.toList, (if latin1 c then c else '?') = id c :=
      fun c hc => if_pos (List.all_eq_true.mp known c hc)
    rw [cut, Option.map_some, whole, List.map_congr_left same, List.map_id, String.ofList_toList]

/-- No stored event is longer than its column. -/
theorem length_event {strict : Bool} {r row : AuditRow} (h : stored strict r = some row)
    {event : String} (named : row.event = some event) : event.length ≤ 12 := by
  rw [stored] at h
  split at h
  · rename_i fit
    cases h
    simp only [fits, Bool.and_eq_true] at fit
    exact length_storable fit.1.1.1.1.1.2 named
  · split at h
    · cases h
    · cases h
      exact length_cut named

/-- A row whose values fit keeps them; the time of one that is stored may be adjusted. -/
theorem stored_of_fits {strict : Bool} {r : AuditRow} (fit : fits r = true)
    (time : strict = true → timely r = true) :
    ∃ row, stored strict r = some row ∧ row.event = r.event ∧ row.targetuser = r.targetuser := by
  cases timed : timely r with
  | true => exact ⟨r, by simp [stored, fit, timed], rfl, rfl⟩
  | false =>
    cases strict with
    | true =>
      rw [timed] at time
      cases time rfl
    | false =>
      simp only [fits, Bool.and_eq_true] at fit
      exact ⟨adjusted r, by simp [stored, timed], cut_of_storable fit.1.1.1.1.2,
        cut_of_storable fit.1.1.1.2⟩

/-- Deeds whose event does not fit. -/
def Deed.long : Deed → Bool
  | .created _ | .grouped _ | .activated _ => false
  | .deleted _ | .deactivated _ | .extended _ | .expired _ => true

theorem length_event_of_long {d : Deed} (long : d.long = true) : 12 < d.event.length := by
  cases d with
  | created | grouped | activated => cases long
  | deleted sam =>
    have fixed : 12 < "Deleted ad user ".length := by decide
    have text : (Deed.deleted sam).event = "Deleted ad user " ++ sam := rfl
    rw [text, String.length_append]
    omega
  | deactivated sam => exact (by decide : 12 < "removeActiveDA".length)
  | extended sam => exact (by decide : 12 < "extendCheckedOutCredLifetime".length)
  | expired sam => exact (by decide : 12 < "expireCheckedOutCred".length)

/-- Such a deed is never told, whatever is inserted. -/
theorem untold_of_long {strict : Bool} {inserts : List AuditRow} {row : AuditRow}
    (hrow : row ∈ table strict inserts) {d : Deed} (long : d.long = true) : ¬ Tells row d := by
  rintro ⟨event, -⟩
  obtain ⟨r, -, kept⟩ := List.mem_filterMap.mp hrow
  have bound := length_event kept event
  have length := length_event_of_long long
  omega

/-! ## Runs -/

/-- Who takes a step. -/
inductive Origin where
  | session
  | checkOut
  | button
  | sweep
  deriving DecidableEq, Repr

/-! Inserts into `audit_log` are taken not to fail by themselves. -/

def GroupAudits (c : GroupCalls) : Prop := ∀ i, c.audit i = false

structure UserAudits (c : UserCalls) : Prop where
  create : c.create.audit = false
  default : GroupAudits c.groups.default
  host : GroupAudits c.groups.host.group
  group : ∀ i, GroupAudits (c.groups.group i)
  gateway : GroupAudits c.groups.gateway.group

structure DomainAudits (c : DomainCalls) : Prop where
  create : c.create.audit = false
  register : c.register.audit = false
  group : GroupAudits c.group
  gateway : GroupAudits c.gateway.group

structure DelegatedAudits (c : DelegatedCalls) : Prop where
  create : c.create.audit = false
  default : GroupAudits c.default
  host : GroupAudits c.host.group
  managing : GroupAudits c.managing
  role : GroupAudits c.role
  gateway : GroupAudits c.gateway.group

structure CheckoutAudits (c : CheckoutCalls) : Prop where
  create : c.create.audit = false
  register : ∀ i, (c.register i).audit = false
  group : ∀ i, GroupAudits (c.group i)
  default : GroupAudits c.default

inductive Spawned (cfg : Config) : Origin → Run Unit → Prop where
  | user {c : UserCalls} (audits : UserAudits c) (req : Request) (form : UserSessionRequest) :
      Spawned cfg .session (served (handleUserSessionPost cfg c req form))
  | static (c : StaticCalls) (req : Request) (form : StaticUserSessionRequest) :
      Spawned cfg .session (served (handleStaticSessionPost cfg c req form))
  | domain {c : DomainCalls} (audits : DomainAudits c) (req : Request) (form : DomainAdminRequest) :
      Spawned cfg .session (served (handleDomainAdminPost cfg c req form))
  | delegated {c : DelegatedCalls} (audits : DelegatedAudits c) (req : Request)
      (form : DelegatedAdminRequest) :
      Spawned cfg .session (served (handleDelegatedAdminPost cfg c req form))
  | reconnect (c : ReconnectCalls) (req : Request) (form : ReconnectRequest) :
      Spawned cfg .session (served (handleReconnectPost cfg c req form))
  | checkOut {c : CheckoutCalls} (audits : CheckoutAudits c) (req : Request)
      (form : CheckedOutCredRequest) :
      Spawned cfg .checkOut (served (handleCheckOutPost cfg c req form))
  | button {c : UpdateCheckoutCalls} (audits : c.button.audit = false) (req : Request)
      (form : UpdateCheckoutRequest) : Spawned cfg .button (served (handleUpdateCheckout c req form))
  | sweep {c : SweepCalls} (audits : ∀ i, (c.delete i).audit = false ∧ (c.admins i).audit = false)
      (active : Bool) (t : Int) : Spawned cfg .sweep (run cfg c active t)

abbrev Recorded : Type := World × History Origin World

inductive Threads (cfg : Config) : Prog Recorded Exn Unit → Prop where
  | intro {l : Origin} {p : Run Unit} (h : Spawned cfg l p) : Threads cfg (recorded l p)

/-- Everything else may do what it likes, but takes no row out of the audit log. -/
def Beside (s t : Recorded) : Prop := t.2 = s.2 ∧ s.1.db.auditLog <+: t.1.db.auditLog

/-! ## The condition -/

/-- Rows of the three events that are told in full. -/
def tracked (r : AuditRow) : Bool :=
  r.event = some "createADUser" || r.event = some "addGroup" || r.event = some "makeActiveDA"

/-- No account is deleted or created for a checkout, no checkout is moved, and what is logged of
the other deeds fits, to a strict database at another hour than that after midnight. -/
structure Permitted (strict : Bool) (l : Origin) (w w' : World) : Prop where
  undeleted : ∀ sam, Deed.deleted sam ∉ deeds w w'
  uncreated : l = .checkOut → ∀ sam, Deed.created sam ∉ deeds w w'
  unmoved : movedCheckouts w w' = []
  fits : ∀ row ∈ newRows w w', tracked row = true → fits row = true
  timely : strict = true → ∀ row ∈ newRows w w', tracked row = true → timely row = true

/-! ## Silent steps -/

/-- A step without a deed that takes no row out of the log. -/
structure Silent (w w' : World) : Prop where
  none : deeds w w' = []
  log : w.db.auditLog <+: w'.db.auditLog

theorem zip_prefix_nil {ρ : Type} {f : ρ × ρ → Option Deed} (same : ∀ r, f (r, r) = none)
    {rows rows' : List ρ} (grown : rows <+: rows') : (rows.zip rows').filterMap f = [] := by
  obtain ⟨new, rfl⟩ := grown
  induction rows with
  | nil => rfl
  | cons r rows ih =>
    rw [List.cons_append, List.zip_cons_cons, List.filterMap_cons_none (same r)]
    exact ih

theorem moved_self (r : CheckoutRow) : moved (r, r) = none := by
  unfold moved
  split
  · rename_i e e' time time'
    rw [time] at time'
    cases time'
    simp
  · rfl

theorem disabled_self (r : ActiveDomainAdminRow) : disabled (r, r) = none := if_pos rfl

/-- The deeds of a step that only adds rows are in its trace. -/
theorem deeds_of_growth (w w' : World) {effects : List Effect}
    (trace : w'.trace = w.trace ++ effects) (checkout : w.db.checkout <+: w'.db.checkout)
    (admins : w.db.activeDomainAdmins <+: w'.db.activeDomainAdmins) :
    deeds w w' = effects.filterMap deedOf := by
  rw [deeds, movedCheckouts, zip_prefix_nil moved_self checkout, zip_prefix_nil disabled_self admins,
    newEffects_of_append trace]
  simp

theorem deeds_directory (w : World) (ad : Directory) (effects : List Effect) :
    deeds w { w with ad := ad, trace := w.trace ++ effects } = effects.filterMap deedOf :=
  deeds_of_growth _ _ rfl List.prefix_rfl List.prefix_rfl

theorem silent_of_effects {w w' : World} {effects : List Effect}
    (trace : w'.trace = w.trace ++ effects) (none : ∀ e ∈ effects, deedOf e = Option.none)
    (checkout : w.db.checkout <+: w'.db.checkout)
    (admins : w.db.activeDomainAdmins <+: w'.db.activeDomainAdmins)
    (log : w.db.auditLog <+: w'.db.auditLog) : Silent w w' where
  none := by
    rw [deeds_of_growth w w' trace checkout admins]
    exact List.filterMap_eq_nil_iff.mpr none
  log := log

/-- A step that leaves the three tables alone. -/
theorem silent_of_same {w w' : World} {effects : List Effect}
    (trace : w'.trace = w.trace ++ effects) (none : ∀ e ∈ effects, deedOf e = Option.none)
    (checkout : w'.db.checkout = w.db.checkout)
    (admins : w'.db.activeDomainAdmins = w.db.activeDomainAdmins)
    (log : w'.db.auditLog = w.db.auditLog) : Silent w w' :=
  silent_of_effects trace none (checkout ▸ List.prefix_rfl) (admins ▸ List.prefix_rfl)
    (log ▸ List.prefix_rfl)

theorem silent_refl (w : World) : Silent w w :=
  silent_of_same (List.append_nil _).symm (fun _ he => absurd he List.not_mem_nil) rfl rfl rfl

theorem silent_logs : Logs Silent where
  refl := silent_refl
  append _ _ := silent_of_effects (List.append_nil _).symm
    (fun _ he => absurd he List.not_mem_nil) List.prefix_rfl List.prefix_rfl (List.prefix_append _ _)

theorem deedOf_engine {effects : List Effect} (engine : ∀ e ∈ effects, Effect.ofEngine e = true) :
    ∀ e ∈ effects, deedOf e = none := by
  intro e he
  have kind := engine e he
  cases e with
  | accountCreated | accountDeleted | groupAdded | daStored => cases kind
  | portReserved | sessionInserted | sessionUpdated | containerCreated | containerStarted | cleaned =>
    rfl

theorem silent_serves : Serves Silent where
  logs := silent_logs
  port _ _ := silent_of_same rfl (fun _ he => by rw [List.mem_singleton.mp he]; rfl) rfl rfl rfl
  session _ :=
    ⟨fun _ => silent_of_same rfl (fun _ he => by rw [List.mem_singleton.mp he]; rfl) rfl rfl rfl,
     fun _ => silent_of_same rfl (fun _ he => by rw [List.mem_singleton.mp he]; rfl) rfl rfl rfl⟩
  engine _ _ _ engine := silent_of_same rfl (deedOf_engine engine) rfl rfl rfl

theorem silent_tokens {w w' : World} (h : OnlyTokens w w') : Silent w w' := by
  obtain ⟨tokens, rfl⟩ := h
  exact silent_of_same (List.append_nil _).symm (fun _ he => absurd he List.not_mem_nil) rfl rfl rfl

/-- A directory change without effects. -/
theorem silent_modify (fails : Bool) {change : Directory → Option (Directory × List Effect)}
    (none : ∀ ad ad' effects, change ad = some (ad', effects) → effects = []) :
    (modify fails change).Steps Silent := by
  refine steps_modify silent_refl fails ?_
  intro w ad effects changed
  refine silent_of_same rfl ?_ rfl rfl rfl
  rw [none _ _ _ changed]
  exact fun _ he => absurd he List.not_mem_nil

theorem silent_changeAccount (fails : Bool) (dn : String) (f : Account → Account) :
    (modify fails (changeAccount dn f)).Steps Silent :=
  silent_modify fails (fun _ _ _ changed => (changeAccount_accounts changed).2)

theorem silent_setWorkstations (fails : Bool) (userDn pre : String) :
    (modify fails (setWorkstations userDn pre)).Steps Silent := by
  refine silent_modify fails (fun ad ad' effects changed => ?_)
  rw [setWorkstations] at changed
  split at changed
  · exact (changeAccount_accounts changed).2
  · cases changed

/-! ## Deeds and their rows -/

/-- A program is in debt between a deed and its row. -/
inductive Phase where
  | settled
  | owing (d : Deed)

inductive Move (strict : Bool) (l : Origin) : Phase → World → World → Phase → Prop where
  | neutral {ph : Phase} {w w' : World} (h : Permitted strict l w w' → Silent w w') :
      Move strict l ph w w' ph
  | deed {ph : Phase} {w w' : World} {d : Deed} (before : ph = .settled ∨ ph = .owing d)
      (only : ∀ x ∈ deeds w w', x = d) (log : w.db.auditLog <+: w'.db.auditLog) :
      Move strict l ph w w' (.owing d)
  | pay {w w' : World} {d : Deed} {row : AuditRow} (none : deeds w w' = [])
      (log : w'.db.auditLog = w.db.auditLog ++ [row]) (known : tracked row = true)
      (tells : Tells row d) : Move strict l (.owing d) w w' .settled

/-- No debt is left, however the program ends. -/
def settledEnd {α : Type} (_ : Except Exn α) (ph : Phase) : Prop := ph = .settled

section Conformance

variable {strict : Bool} {l : Origin}

def Neutral (strict : Bool) (l : Origin) (w w' : World) : Prop := Permitted strict l w w' → Silent w w'

theorem move_neutral (ph : Phase) (w w' : World) (h : Neutral strict l w w') :
    Move strict l ph w w' ph := .neutral h

theorem neutral_of_silent {α : Type} {p : Run α} (hp : p.Steps Silent) : p.Steps (Neutral strict l) :=
  Prog.steps_mono (fun _ _ silent => fun _ => silent) hp

theorem conforms_neutral {α : Type} {p : Run α} {ph : Phase} (hp : p.Steps (Neutral strict l)) :
    Conforms (Move strict l) (fun _ ph' => ph' = ph) p ph :=
  conforms_weaken (conforms_of_steps (move_neutral ph) hp (Prog.returns_any p)) (fun _ _ h => h.1)

theorem conforms_silent {α : Type} {p : Run α} {ph : Phase} (hp : p.Steps Silent) :
    Conforms (Move strict l) (fun _ ph' => ph' = ph) p ph :=
  conforms_neutral (neutral_of_silent hp)

/-- Behind a part without debts. -/
theorem conforms_after {α β : Type} {V : α → Prop} {p : Run α} {f : α → Run β}
    (hp : Conforms (Move strict l) settledEnd p .settled) (hv : p.Returns V)
    (hf : ∀ a, V a → Conforms (Move strict l) settledEnd (f a) .settled) :
    Conforms (Move strict l) settledEnd (p >>= f) .settled := by
  refine conforms_bind (conforms_returning hp hv) ?_ (fun _ _ h => h.1)
  rintro a ph ⟨settled, value⟩
  rw [settled]
  exact hf a (value a rfl)

theorem conforms_then {α β : Type} {p : Run α} {f : α → Run β}
    (hp : Conforms (Move strict l) settledEnd p .settled)
    (hf : ∀ a, Conforms (Move strict l) settledEnd (f a) .settled) :
    Conforms (Move strict l) settledEnd (p >>= f) .settled :=
  conforms_after hp (Prog.returns_any p) (fun a _ => hf a)

/-- A row is written when a debt is open, or when there is none. -/
theorem conforms_audit {d : Deed} {event : String}
    {authUser targetHost targetUser targetGroup clientIp : Option String} {ph : Phase}
    (named : d.event = event) (target : d.account = targetUser)
    (known : ∀ time, tracked ⟨time, authUser, some event, targetUser, targetHost, targetGroup,
      clientIp⟩ = true)
    (before : ph = .settled ∨ ph = .owing d) :
    Conforms (Move strict l) settledEnd
      (audit false event authUser targetHost targetUser targetGroup clientIp) ph := by
  rcases before with rfl | rfl
  · exact conforms_silent (steps_audit silent_logs _ _ _ _ _ _ _)
  · intro w
    let row : AuditRow :=
      ⟨w.clock.kk, authUser, some event, targetUser, targetHost, targetGroup, clientIp⟩
    let w' : World := { w with db := { w.db with auditLog := w.db.auditLog ++ [row] } }
    have none : deeds w w' = [] :=
      deeds_of_growth w w' (List.append_nil _).symm List.prefix_rfl List.prefix_rfl
    have paid : Move strict l (.owing d) w w' .settled :=
      .pay none rfl (known _) ⟨by rw [named], target.symm⟩
    exact ⟨.settled, paid, rfl⟩

/-! ### Accounts -/

/-- A call on every controller, in whichever phase. -/
theorem conforms_onControllers (cfg : Config) {call : Nat → Run Unit} {ph : Phase}
    (h : ∀ i, Conforms (Move strict l) (fun _ ph' => ph' = ph) (call i) ph) :
    Conforms (Move strict l) (endsIn (· = ph)) (onControllers cfg call) ph := by
  refine conforms_forM (fun _ => ph) (fun i _ _ => ?_) rfl
  exact conforms_orElse (h i) (fun _ _ same => same) (fun _ _ same => same)

/-- At most the row of a created account is owed. -/
def Owes (sam : String) (ph : Phase) : Prop := ph = .settled ∨ ph = .owing (.created sam)

theorem conforms_createOn (a : Account) (answers : ControllerAnswers) (userCreated : Bool)
    {ph : Phase} (before : Owes a.sam ph) :
    Conforms (Move strict l) (endsIn (Owes a.sam)) (createOn a answers userCreated) ph := by
  have added : Conforms (Move strict l) (fun _ ph' => Owes a.sam ph')
      (modify answers.create (addAccount a)) ph := by
    refine conforms_atom (fun w => ?_)
    cases answers.create with
    | true => exact ⟨ph, .neutral (fun _ => silent_refl w), before⟩
    | false =>
      let w' : World :=
        { w with
          ad := { w.ad with accounts := w.ad.accounts ++ [a] }
          trace := w.trace ++ [.accountCreated a.sam] }
      have only : ∀ x ∈ deeds w w', x = .created a.sam := by
        intro x hx
        rw [deeds_directory] at hx
        exact List.mem_singleton.mp hx
      have deed : Move strict l ph w w' (.owing (.created a.sam)) := .deed before only List.prefix_rfl
      exact ⟨_, deed, .inr rfl⟩
  rw [createOn]
  split
  · refine conforms_bind_endsIn (I := Owes a.sam)
      (conforms_attempt added (fun _ _ h => h) (fun _ _ h => h)) ?_
    rintro (_ | _) ph' h
    · exact h
    · exact h
  · exact before

/-- The overload that is told who asks. -/
theorem conforms_createAdUser (cfg : Config) {c : CreateCalls} (audits : c.audit = false)
    (au : AuthUser) (u : ADUser) :
    Conforms (Move strict l) settledEnd (createAdUser cfg c (some au) u) .settled := by
  rw [createAdUser]
  split
  · rename_i sam domain asked placed
    refine conforms_then (conforms_silent ((reads_posixFor _ _).steps silent_refl)) (fun posix => ?_)
    have creating : ∀ created i ph, Owes sam ph → Conforms (Move strict l) (endsIn (Owes sam))
        (createOn (newAccount u sam posix) (c.controller i) created) ph :=
      fun created i ph before => conforms_createOn (newAccount u sam posix) _ created before
    refine conforms_bind_endsIn (conforms_foldlM creating _ _ (.inl rfl)) (fun _ ph before => ?_)
    have changing : ∀ dn f (fails : Nat → Bool), Conforms (Move strict l) (endsIn (· = ph))
        (onControllers cfg (fun i => modify (fails i) (changeAccount dn f))) ph :=
      fun dn f fails => conforms_onControllers cfg
        (fun i => conforms_silent (silent_changeAccount _ _ _))
    refine conforms_bind_endsIn (changing _ _ _) (fun _ ph₁ same₁ => ?_)
    rw [same₁]
    refine conforms_bind_endsIn (changing _ _ _) (fun _ ph₂ same₂ => ?_)
    rw [same₂, audits]
    have logged : Conforms (Move strict l) settledEnd
        (audit false "createADUser" au.uid none (some sam) none none) ph :=
      conforms_audit (d := .created sam) rfl rfl (fun _ => rfl) before
    exact conforms_bind (Q := settledEnd) logged (fun _ _ settled => settled)
      (fun _ _ settled => settled)
  · rfl

theorem conforms_createRandomizedADUser (cfg : Config) {c : CreateCalls} (audits : c.audit = false)
    (au : AuthUser) : Conforms (Move strict l) settledEnd
      (createRandomizedADUser cfg c (some au)) .settled := by
  refine conforms_then (conforms_silent (Prog.steps_attempt
    ((reads_getRandomSamaccountname c).steps silent_refl))) (fun name => ?_)
  cases name with
  | none => rfl
  | some userid => exact conforms_createAdUser cfg audits au _

theorem returns_createAdUser (cfg : Config) (c : CreateCalls) (au : Option AuthUser) (u : ADUser) :
    (createAdUser cfg c au u).Returns (fun o => ∀ u', o = some u' →
      u'.sAMAccountName = u.sAMAccountName) := by
  rw [createAdUser]
  split
  · refine Prog.returns_bind (Prog.returns_any _) (fun _ _ => ?_)
    refine Prog.returns_bind (Prog.returns_any _) (fun _ _ => ?_)
    refine Prog.returns_bind (Prog.returns_any _) (fun _ _ => ?_)
    refine Prog.returns_bind (Prog.returns_any _) (fun _ _ => ?_)
    have same : ∀ u', some { u with created := true } = some u' →
        u'.sAMAccountName = u.sAMAccountName := by
      rintro _ ⟨⟩
      rfl
    cases au with
    | none => exact Prog.returns_bind (Prog.returns_any _) (fun _ _ => Prog.returns_pure same)
    | some au => exact Prog.returns_bind (Prog.returns_any _) (fun _ _ => Prog.returns_pure same)
  · apply Prog.returns_pure
    intro u' noUser
    cases noUser

/-- A created account has a name. -/
theorem returns_createRandomizedADUser (cfg : Config) (c : CreateCalls) (au : Option AuthUser) :
    (createRandomizedADUser cfg c au).Returns (fun o => ∀ u, o = some u → u.sAMAccountName ≠ none) := by
  refine Prog.returns_bind (Prog.returns_any _) (fun name _ => ?_)
  cases name with
  | none =>
    apply Prog.returns_pure
    intro u noUser
    cases noUser
  | some userid =>
    refine (returns_createAdUser cfg c au _).mono (fun o same u hu => ?_)
    rw [same u hu]
    simp

/-- Every account that a step destroys is one too many. -/
theorem neutral_destroySubcontext (fails : Bool) (dn : String) :
    (modify fails (destroySubcontext dn)).Steps (Neutral strict l) := by
  refine steps_modify (fun w _ => silent_refl w) fails ?_
  intro w ad effects changed permitted
  cases changed
  refine ⟨?_, List.prefix_rfl⟩
  rw [deeds_directory]
  cases found : w.ad.accounts.filter (fun a => dnEq a.dn dn) with
  | nil => rfl
  | cons a rest =>
    have deleted := permitted.undeleted a.sam
    rw [deeds_directory, found] at deleted
    exact absurd List.mem_cons_self deleted

theorem neutral_logs : Logs (Neutral strict l) where
  refl w _ := silent_refl w
  append w row _ := silent_logs.append w row

theorem neutral_deleteAdUser (cfg : Config) (c : DeleteCalls) (u : ADUser) (au : Option AuthUser)
    (clientip : Option String) : (deleteAdUser cfg c u au clientip).Steps (Neutral strict l) :=
  steps_deleteAdUser neutral_logs neutral_destroySubcontext _ _ _ _ _

/-- So is every account that is created for a checkout. -/
theorem neutral_addAccount (fails : Bool) (a : Account) :
    (modify fails (addAccount a)).Steps (Neutral strict .checkOut) := by
  refine steps_modify (fun w _ => silent_refl w) fails ?_
  intro w ad effects changed permitted
  cases changed
  have created := permitted.uncreated rfl a.sam
  rw [deeds_directory] at created
  exact absurd List.mem_cons_self created

/-! ### Groups and Domain Admins -/

theorem conforms_addMember {sam : String} (fails : Bool) (userDn groupDN : String) :
    Conforms (Move strict l) (fun r ph => match r with
        | .ok _ => ph = .owing (.grouped sam)
        | .error _ => ph = .settled) (modify fails (addMember sam userDn groupDN)) .settled := by
  refine conforms_atom (fun w => ?_)
  cases fails with
  | true => exact ⟨.settled, .neutral (fun _ => silent_refl w), rfl⟩
  | false =>
    simp only [Bool.false_eq_true, if_false]
    cases added : addMember sam userDn groupDN w.ad with
    | none => exact ⟨.settled, .neutral (fun _ => silent_refl w), rfl⟩
    | some result =>
      obtain ⟨ad, effects⟩ := result
      have logged : effects = [.groupAdded sam groupDN] := by
        rw [addMember] at added
        split at added
        · cases added
          rfl
        · cases added
      let w' : World := { w with ad := ad, trace := w.trace ++ effects }
      have only : ∀ x ∈ deeds w w', x = .grouped sam := by
        intro x hx
        rw [deeds_directory, logged] at hx
        exact List.mem_singleton.mp hx
      have deed : Move strict l .settled w w' (.owing (.grouped sam)) :=
        .deed (.inl rfl) only List.prefix_rfl
      exact ⟨_, deed, rfl⟩

theorem conforms_addGroupToADUser (cfg : Config) {c : GroupCalls} (audits : GroupAudits c)
    (urn : Option String) {u : ADUser} (named : u.sAMAccountName ≠ none) (au : Option AuthUser)
    (clientip : Option String) :
    Conforms (Move strict l) settledEnd (addGroupToADUser cfg c urn (some u) au clientip) .settled := by
  obtain ⟨sam, name⟩ := Option.ne_none_iff_exists'.mp named
  cases urn with
  | none => rfl
  | some urn =>
    refine conforms_orElse (Q := settledEnd) ?_ (fun _ _ h => h) (fun _ _ h => h)
    refine conforms_then (conforms_silent ((reads_search _ _).steps silent_refl)) (fun dns => ?_)
    cases dns.head? with
    | none => rfl
    | some userDn =>
      refine conforms_bind_endsIn (I := (· = .settled)) (conforms_onControllers cfg (fun i => ?_)) ?_
      · refine conforms_bind (conforms_addMember (c.controller i) userDn (groupDn cfg urn)) ?_
          (fun _ _ settled => settled)
        intro _ ph (owing : ph = .owing (.grouped (javaString u.sAMAccountName)))
        rw [name] at owing
        rw [audits i, name]
        exact conforms_audit (d := .grouped sam) rfl rfl (fun _ => rfl) (.inr owing)
      · rintro _ ph rfl
        split
        · rfl
        · rfl

theorem conforms_addHostAccessGroup (cfg : Config) {c : HostGroupCalls} (audits : GroupAudits c.group)
    {u : ADUser} (named : u.sAMAccountName ≠ none) (fqdn : Option String) :
    Conforms (Move strict l) settledEnd (addHostAccessGroup cfg c (some u) fqdn) .settled := by
  refine conforms_orElse (Q := settledEnd) ?_ (fun _ _ h => h) (fun _ _ h => h)
  refine conforms_then (conforms_silent ((reads_hostAccessRule _ _).steps silent_refl)) (fun rule => ?_)
  cases rule with
  | none => rfl
  | some r => exact conforms_addGroupToADUser cfg audits _ named _ _

theorem conforms_addGatewayAccessGroup (cfg : Config) {c : GatewayGroupCalls}
    (audits : GroupAudits c.group) {u : ADUser} (named : u.sAMAccountName ≠ none)
    (fqdn : Option String) :
    Conforms (Move strict l) settledEnd (addGatewayAccessGroup cfg c (some u) fqdn) .settled := by
  refine conforms_orElse (Q := settledEnd) ?_ (fun _ _ h => h) (fun _ _ h => h)
  refine conforms_then (conforms_silent ((reads_query _ _ _ _).steps silent_refl)) (fun rule => ?_)
  cases rule with
  | none => rfl
  | some r => exact conforms_addGroupToADUser cfg audits _ named _ _

theorem conforms_makeUserAuthorizedDA {c : AdminCalls} (audits : c.audit = false) (u : ADUser)
    (authu : Option AuthUser) (clientip : Option String) :
    Conforms (Move strict l) settledEnd (makeUserAuthorizedDA c u authu clientip) .settled := by
  have registered : Conforms (Move strict l) (fun r ph => match r with
        | .ok _ => ph = .owing (.activated u.sAMAccountName)
        | .error _ => ph = .settled) (execute c.write .activeDomainAdmins [] (fun db =>
      ({ db with activeDomainAdmins := db.activeDomainAdmins ++
        [⟨u.sAMAccountName, some c.now, some 0⟩] }, [.daStored u.sAMAccountName]))) .settled := by
    refine conforms_atom (fun w => ?_)
    cases c.write with
    | true => exact ⟨.settled, .neutral (fun _ => silent_refl w), rfl⟩
    | false =>
      let w' : World :=
        { w with
          db := { w.db with
            activeDomainAdmins := w.db.activeDomainAdmins ++ [⟨u.sAMAccountName, some c.now, some 0⟩] }
          trace := w.trace ++ [.daStored u.sAMAccountName] }
      have only : ∀ x ∈ deeds w w', x = .activated u.sAMAccountName := by
        intro x hx
        rw [deeds_of_growth w w' rfl List.prefix_rfl (List.prefix_append _ _)] at hx
        exact List.mem_singleton.mp hx
      have deed : Move strict l .settled w w' (.owing (.activated u.sAMAccountName)) :=
        .deed (.inl rfl) only List.prefix_rfl
      exact ⟨_, deed, rfl⟩
  refine conforms_orElse (Q := settledEnd) ?_ (fun _ _ h => h) (fun _ _ h => h)
  refine conforms_bind registered ?_ (fun _ _ settled => settled)
  intro _ ph owing
  rw [audits]
  refine conforms_bind (Q := settledEnd)
    (conforms_audit (d := .activated u.sAMAccountName) rfl rfl (fun _ => rfl) (.inr owing)) ?_
      (fun _ _ h => h)
  exact fun _ _ settled => settled

end Conformance

end AuditTrail
