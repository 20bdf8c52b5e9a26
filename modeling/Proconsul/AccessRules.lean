import Mathlib.Data.Set.Insert
import Proconsul.AdminConsole

/-!
# The access rules as a set

Login rules and Domain Admin rules, for users, groups and entitlements, lie in
three tables. The page of `generateAccessControl` shows them in six lists and
`handlePostOfAddAC` changes them. Here both are compared with one set of rules:
a rule is a kind, a value and a purpose, and a request adds one rule or removes
the rules it flags.

The tables are not that set. `groupurn` and `entitlement` are primary keys, so a
group or an entitlement has a rule for one purpose only; the comparison says
exactly which requests notice. The database answers every statement, and
refuses a value that is too long for its column. Characters that a column
cannot store are not considered.
-/

namespace AccessRules

open Program Schema Text Surroundings AdminConsole

/-! ## The page -/

/-- The six lists that the page is rendered from. -/
structure AccessControlPage where
  proconsulGroups : List AccessGroupRow
  daGroups : List AccessGroupRow
  proconsulEntitlements : List EntitlementRow
  daEntitlements : List EntitlementRow
  proconsulUsers : List AccessUserRow
  daUsers : List AccessUserRow
  isDARuleAdmin : Bool
  deriving DecidableEq, Repr

inductive View where
  | accessControl (page : AccessControlPage)
  | test (message : String)
  deriving DecidableEq, Repr

def selectGroups (fails : Bool) (type : String) : Run (List AccessGroupRow) :=
  query fails .accessGroups ["groupurn", "ou", "type"] (fun db =>
    (db.accessGroups.filter (fun r => sqlEq r.type (some type))).map
      (fun r => ⟨r.groupurn, r.ou, some type⟩))

def selectEntitlements (fails : Bool) (target : String) : Run (List EntitlementRow) :=
  query fails .entitlements ["entitlement", "target"] (fun db =>
    (db.entitlements.filter (fun r => sqlEq r.target (some target))).map
      (fun r => ⟨r.entitlement, some target⟩))

def selectUsers (fails : Bool) (type : String) : Run (List AccessUserRow) :=
  query fails .accessUser ["eppn", "type"] (fun db =>
    db.accessUser.filter (fun r => sqlEq r.type (some type)))

/-- The body of the `try` block. -/
def readRules (c : ConsoleCalls) : Run (Bool → AccessControlPage) := do
  if c.connect then Prog.throwing (.runtimeException "Failed in getPCAdminDBConnection()")
  let ags ← selectGroups (c.statement 0) "proconsul"
  let agdas ← selectGroups (c.statement 1) "da"
  let aes ← selectEntitlements (c.statement 2) "proconsul"
  let aedas ← selectEntitlements (c.statement 3) "da"
  let aus ← selectUsers (c.statement 4) "proconsul"
  let audas ← selectUsers (c.statement 5) "da"
  return fun admin => ⟨ags, agdas, aes, aedas, aus, audas, admin⟩

def generateAccessControl (config : AdminConfig) (c : ConsoleCalls) (request : AdminRequest) :
    Run View := do
  let admitted ← (do if ← isLoginRuleAdmin config request then return true
                     else isDARuleAdmin config request : Run Bool)
  if admitted then
    let read : Except String (Bool → AccessControlPage) ←
      Prog.tryCatch (do return Except.ok (← readRules c))
        (fun e => return Except.error ("Error reading from DB: " ++ getMessage e))
    match read with
    | .ok page => return .accessControl (page (← isDARuleAdmin config request))
    | .error message => return .test message
  else return .test "You are not authorized to perform that operation."

/-! ## Rules -/

inductive Kind where
  | user | group | entitlement
  deriving DecidableEq, Repr

inductive Purpose where
  | login | domainAdmin
  deriving DecidableEq, Repr

structure Rule where
  kind : Kind
  value : String
  purpose : Purpose
  deriving DecidableEq, Repr

/-- The value in the `type` and `target` columns. -/
def Purpose.type : Purpose → String
  | .login => "proconsul"
  | .domainAdmin => "da"

/-- The letters that the fields of a purpose's removal form begin with. -/
def Purpose.stem : Purpose → String
  | .login => "p"
  | .domainAdmin => "da"

def Kind.suffix : Kind → String
  | .user => "user"
  | .group => "grp"
  | .entitlement => "ent"

/-- The options of the selector in both forms that add a rule. -/
def selected (selectedType : String) : Option Kind :=
  if selectedType = "eppn" then some .user
  else if selectedType = "group" then some .group
  else if selectedType = "entitlement" then some .entitlement
  else none

/-- Width of the column that holds the value. -/
def Kind.width : Kind → Nat
  | .user => 80
  | .group => 256
  | .entitlement => 256

/-- The rules on a page. A row without a value is none. -/
def AccessControlPage.rules (page : AccessControlPage) : List Rule :=
  page.proconsulGroups.map (fun r => ⟨.group, r.groupurn, .login⟩) ++
  page.daGroups.map (fun r => ⟨.group, r.groupurn, .domainAdmin⟩) ++
  page.proconsulEntitlements.map (fun r => ⟨.entitlement, r.entitlement, .login⟩) ++
  page.daEntitlements.map (fun r => ⟨.entitlement, r.entitlement, .domainAdmin⟩) ++
  page.proconsulUsers.filterMap (fun r => r.eppn.map (⟨.user, ·, .login⟩)) ++
  page.daUsers.filterMap (fun r => r.eppn.map (⟨.user, ·, .domainAdmin⟩))

def View.rules : View → List Rule
  | .accessControl page => page.rules
  | .test _ => []

/-- What `GET /access_control` shows a requester. -/
def shown (config : AdminConfig) (viewer : AdminRequest) (w : World) : Set Rule :=
  { r | ∃ view, ((generateAccessControl config .noOutage viewer).run w).1 = .ok view ∧
    r ∈ view.rules }

/-! ## Requests as changes of a set -/

inductive Submission where
  | nothing
  | add (r : Rule)
  | remove (rs : List Rule)
  deriving DecidableEq, Repr

def added (p : Parameters) (selector property : String) (purpose : Purpose) : Submission :=
  match (p.getParameter selector).bind selected, p.getParameter property with
  | some kind, some value => .add ⟨kind, value, purpose⟩
  | _, _ => .nothing

/-- The rules whose flag is set: a flag and a value go together by their number. -/
def flagged (p : Parameters) (purpose : Purpose) : List Rule :=
  p.entries.flatMap (fun e => [Kind.user, .group, .entitlement].filterMap (fun kind => do
    let num ← numberAfter ("del" ++ purpose.stem ++ kind.suffix) e.1
    let value ← p.getParameter (purpose.stem ++ kind.suffix ++ num)
    if e.2 = "1" then some ⟨kind, value, purpose⟩ else none))

def submission (p : Parameters) : Submission :=
  if submitted p "addformsubmitted" then added p "typeselector" "userproperty" .login
  else if submitted p "adddaformsubmitted" then added p "daselector" "daproperty" .domainAdmin
  else if submitted p "accessformsubmitted" then .remove (flagged p .login)
  else if submitted p "daaformsubmitted" then .remove (flagged p .domainAdmin)
  else .nothing

/-- The abstract step. -/
def Submission.apply (rules : Set Rule) : Submission → Set Rule
  | .nothing => rules
  | .add r => insert r rules
  | .remove rs => rules \ { r | r ∈ rs }

/-- A statement fails only if it inserts a value that is too long. -/
def calls (p : Parameters) : ConsoleCalls where
  connect := false
  statement _ := match submission p with
    | .add r => decide (r.kind.width < r.value.length)
    | _ => false

def posted (config : AdminConfig) (w : World) (request : AdminRequest) : World :=
  ((handlePostOfAddAC config (calls request.parameters) request).run w).2

/-! ## The tables behind the page -/

/-- The values of a kind's table, each with its purpose. -/
def Kind.rows (db : Database) : Kind → List (Option String × Option String)
  | .user => db.accessUser.map (fun r => (r.eppn, r.type))
  | .group => db.accessGroups.map (fun r => (some r.groupurn, r.type))
  | .entitlement => db.entitlements.map (fun r => (some r.entitlement, r.target))

def Stored (db : Database) (r : Rule) : Prop :=
  ∃ t, (some r.value, t) ∈ r.kind.rows db ∧ sqlEq t (some r.purpose.type) = true

/-- The primary keys ask for the value alone. -/
def Taken (db : Database) (r : Rule) : Prop :=
  r.kind ≠ .user ∧ ∃ row ∈ r.kind.rows db, sqlEq row.1 (some r.value) = true

instance (db : Database) (r : Rule) : Decidable (Taken db r) :=
  inferInstanceAs (Decidable (_ ∧ _))

/-- Rules that a `where` clause cannot tell from one another. -/
def Alike (u r : Rule) : Prop :=
  u.kind = r.kind ∧ u.purpose = r.purpose ∧ sqlEq (some u.value) (some r.value) = true

theorem purpose_of_type {t : Option String} {a b : Purpose} (ha : sqlEq t (some a.type) = true)
    (hb : sqlEq t (some b.type) = true) : a = b := by
  have both := sqlEq_trans (sqlEq_symm ha) hb
  cases a <;> cases b <;> first | rfl | (revert both; decide)

/-- The page for the present contents of the tables. -/
def pageOf (db : Database) (admin : Bool) : AccessControlPage where
  proconsulGroups := (db.accessGroups.filter (fun r => sqlEq r.type (some "proconsul"))).map
    (fun r => ⟨r.groupurn, r.ou, some "proconsul"⟩)
  daGroups := (db.accessGroups.filter (fun r => sqlEq r.type (some "da"))).map
    (fun r => ⟨r.groupurn, r.ou, some "da"⟩)
  proconsulEntitlements :=
    (db.entitlements.filter (fun r => sqlEq r.target (some "proconsul"))).map
      (fun r => ⟨r.entitlement, some "proconsul"⟩)
  daEntitlements := (db.entitlements.filter (fun r => sqlEq r.target (some "da"))).map
    (fun r => ⟨r.entitlement, some "da"⟩)
  proconsulUsers := db.accessUser.filter (fun r => sqlEq r.type (some "proconsul"))
  daUsers := db.accessUser.filter (fun r => sqlEq r.type (some "da"))
  isDARuleAdmin := admin

theorem mem_pageOf (db : Database) (admin : Bool) (r : Rule) :
    r ∈ (pageOf db admin).rules ↔ Stored db r := by
  obtain ⟨kind, value, purpose⟩ := r
  cases kind <;> cases purpose <;>
    simp [AccessControlPage.rules, pageOf, Stored, Kind.rows, Purpose.type, and_assoc,
      and_comm, and_left_comm]

theorem run_readRules (w : World) : (readRules .noOutage).run w = (.ok (pageOf w.db), w) := rfl

theorem run_generateAccessControl {config : AdminConfig} {viewer : AdminRequest}
    (admin : listed config.pcadminlist viewer.remoteUser = true) (w : World) :
    (generateAccessControl config .noOutage viewer).run w =
      (.ok (.accessControl (pageOf w.db true)), w) := by
  have gate : (do if ← isLoginRuleAdmin config viewer then return true
                  else isDARuleAdmin config viewer : Run Bool).run w = (.ok true, w) :=
    Prog.run_bind_ok (run_isSubAdmin _ admin w)
  have attempt : (Prog.tryCatch (do return Except.ok (← readRules .noOutage))
      (fun e => return Except.error ("Error reading from DB: " ++ getMessage e)) :
        Run (Except String (Bool → AccessControlPage))).run w = (.ok (.ok (pageOf w.db)), w) := by
    rw [Prog.run_tryCatch, Prog.run_bind_ok (run_readRules w)]
    rfl
  rw [generateAccessControl, Prog.run_bind_ok gate, if_pos rfl, Prog.run_bind_ok attempt]
  exact Prog.run_bind_ok (run_isAdmin admin w)

/-- A general administrator sees the rules that are stored, and no others. -/
theorem mem_shown {config : AdminConfig} {viewer : AdminRequest}
    (admin : listed config.pcadminlist viewer.remoteUser = true) (w : World) (r : Rule) :
    r ∈ shown config viewer w ↔ Stored w.db r := by
  rw [← mem_pageOf w.db true]
  simp [shown, run_generateAccessControl admin, View.rules]

/-! ## Removing -/

/-- The branch of a kind. -/
def removal (purpose : Purpose) : Kind → Deletion
  | .user => (ruleDeletions purpose.stem purpose.type).get ⟨0, by simp [ruleDeletions]⟩
  | .group => (ruleDeletions purpose.stem purpose.type).get ⟨1, by simp [ruleDeletions]⟩
  | .entitlement => (ruleDeletions purpose.stem purpose.type).get ⟨2, by simp [ruleDeletions]⟩

theorem mem_ruleDeletions {purpose : Purpose} {d : Deletion} :
    d ∈ ruleDeletions purpose.stem purpose.type ↔ ∃ kind, d = removal purpose kind := by
  simp only [ruleDeletions, List.mem_cons, List.not_mem_nil, or_false]
  constructor
  · rintro (rfl | rfl | rfl)
    · exact ⟨.user, rfl⟩
    · exact ⟨.group, rfl⟩
    · exact ⟨.entitlement, rfl⟩
  · rintro ⟨kind, rfl⟩
    cases kind
    · exact .inl rfl
    · exact .inr (.inl rfl)
    · exact .inr (.inr rfl)

theorem flag_removal (purpose : Purpose) (kind : Kind) :
    (removal purpose kind).flag = "del" ++ purpose.stem ++ kind.suffix := by
  cases kind <;> rfl

theorem mark_removal (purpose : Purpose) (kind : Kind) : (removal purpose kind).mark = "1" := by
  cases kind <;> rfl

theorem apart_ruleDeletions (purpose : Purpose) :
    Apart (ruleDeletions purpose.stem purpose.type) := by
  cases purpose <;> (rw [Apart]; decide)

/-- A removal selects in its own table, by value and purpose. -/
theorem mem_rows_remove {purpose : Purpose} {kind kind' : Kind} {field : String → Option String}
    {db : Database} {x : Option String × Option String} :
    x ∈ kind.rows ((removal purpose kind').remove field db) ↔ x ∈ kind.rows db ∧
      ¬ (kind = kind' ∧ sqlEq x.1 (field (purpose.stem ++ kind.suffix)) = true ∧
        sqlEq x.2 (some purpose.type) = true) := by
  cases kind <;> cases kind' <;>
    simp only [Kind.rows, removal, ruleDeletions, Kind.suffix, List.get_eq_getElem,
      List.getElem_cons_zero, List.getElem_cons_succ, List.mem_map, mem_deleteWhere, true_and,
      reduceCtorEq, false_and, not_false_eq_true, and_true, Bool.and_eq_false_imp, not_and,
      Bool.not_eq_true]
  all_goals
    constructor
    · rintro ⟨row, ⟨mem, out⟩, rfl⟩
      exact ⟨⟨row, mem, rfl⟩, out⟩
    · rintro ⟨⟨row, mem, rfl⟩, out⟩
      exact ⟨row, ⟨mem, out⟩, rfl⟩

theorem mem_rows_removeMarked {p : Parameters} {purpose : Purpose} {kind : Kind}
    {marks : List (Deletion × String)} {db : Database} {x : Option String × Option String}
    (rules : ∀ m ∈ marks, ∃ kind, m.1 = removal purpose kind) :
    x ∈ kind.rows (marks.foldl (removeMarked p) db) ↔ x ∈ kind.rows db ∧
      ∀ num, (removal purpose kind, num) ∈ marks →
        ¬ (sqlEq x.1 (p.getParameter (purpose.stem ++ kind.suffix ++ num)) = true ∧
          sqlEq x.2 (some purpose.type) = true) := by
  induction marks generalizing db with
  | nil => simp
  | cons m marks ih =>
    obtain ⟨d, num⟩ := m
    obtain ⟨kind', rfl⟩ : ∃ kind', d = removal purpose kind' := rules _ List.mem_cons_self
    have same : ∀ a b : Kind, removal purpose a = removal purpose b ↔ a = b := by
      intro a b
      constructor
      · intro eq
        have flags := congrArg Deletion.table eq
        cases a <;> cases b <;> first | rfl | cases flags
      · rintro rfl
        rfl
    rw [List.foldl_cons, ih (fun m hm => rules m (List.mem_cons_of_mem _ hm)), removeMarked,
      mem_rows_remove]
    simp only [List.mem_cons, Prod.mk.injEq, same]
    constructor
    · rintro ⟨⟨mem, first⟩, later⟩
      refine ⟨mem, ?_⟩
      rintro n (⟨rfl, rfl⟩ | hm)
      · exact fun both => first ⟨rfl, both⟩
      · exact later n hm
    · rintro ⟨mem, all⟩
      refine ⟨⟨mem, ?_⟩, fun n hm => all n (.inr hm)⟩
      rintro ⟨rfl, both⟩
      exact all num (.inl ⟨rfl, rfl⟩) both

theorem mem_flagged {p : Parameters} {purpose : Purpose} {r : Rule} :
    r ∈ flagged p purpose ↔ r.purpose = purpose ∧ ∃ num,
      (removal purpose r.kind, num) ∈ marked (ruleDeletions purpose.stem purpose.type) p ∧
        p.getParameter (purpose.stem ++ r.kind.suffix ++ num) = some r.value := by
  have kinds : ∀ kind : Kind, kind ∈ [Kind.user, .group, .entitlement] := by
    intro kind
    cases kind <;> decide
  rw [flagged, List.mem_flatMap]
  constructor
  · rintro ⟨⟨t, mark⟩, mem, found⟩
    obtain ⟨kind, -, chosen⟩ := List.mem_filterMap.mp found
    obtain ⟨num, number, chosen⟩ := Option.bind_eq_some_iff.mp chosen
    obtain ⟨value, given, chosen⟩ := Option.bind_eq_some_iff.mp chosen
    split at chosen
    · rename_i one
      cases chosen
      obtain ⟨named, digits⟩ := numberAfter_eq_some.mp number
      refine ⟨rfl, num, ?_, given⟩
      rw [mem_marked (apart_ruleDeletions purpose), flag_removal, mark_removal]
      refine ⟨mem_ruleDeletions.mpr ⟨kind, rfl⟩, ?_, digits⟩
      dsimp only at named one ⊢
      rw [← named, ← one]
      exact mem
    · cases chosen
  · rintro ⟨rfl, num, hm, given⟩
    rw [mem_marked (apart_ruleDeletions _), flag_removal, mark_removal] at hm
    obtain ⟨-, mem, digits⟩ := hm
    refine ⟨_, mem, List.mem_filterMap.mpr ⟨r.kind, kinds r.kind, ?_⟩⟩
    simp [numberAfter_eq_some.mpr ⟨rfl, digits⟩, given]

/-- The deletion loop removes what is flagged and what the database takes for it. -/
theorem stored_removeMarked {p : Parameters} {purpose : Purpose} {db : Database} {u : Rule} :
    Stored ((marked (ruleDeletions purpose.stem purpose.type) p).foldl (removeMarked p) db) u ↔
      Stored db u ∧ ∀ r ∈ flagged p purpose, ¬ Alike u r := by
  have rules : ∀ m ∈ marked (ruleDeletions purpose.stem purpose.type) p,
      ∃ kind, m.1 = removal purpose kind := by
    rintro ⟨d, num⟩ hm
    exact mem_ruleDeletions.mp ((mem_marked (apart_ruleDeletions purpose)).mp hm).1
  simp only [Stored, mem_rows_removeMarked rules]
  constructor
  · rintro ⟨t, ⟨mem, spared⟩, type⟩
    refine ⟨⟨t, mem, type⟩, ?_⟩
    rintro r flag ⟨kind, same, alike⟩
    obtain ⟨rfl, num, hm, given⟩ := mem_flagged.mp flag
    rw [← kind] at hm given
    refine spared num hm ⟨?_, same ▸ type⟩
    rw [given]
    exact alike
  · rintro ⟨⟨t, mem, type⟩, others⟩
    refine ⟨t, ⟨mem, ?_⟩, type⟩
    rintro num hm ⟨alike, type'⟩
    obtain ⟨-, value, -, given, -⟩ := sqlEq_some alike
    have purposes : u.purpose = purpose := purpose_of_type type type'
    refine others ⟨u.kind, value, purpose⟩ ?_ ⟨rfl, purposes, given ▸ alike⟩
    exact mem_flagged.mpr ⟨rfl, num, hm, given⟩

/-! ## Adding -/

/-- The row that an addition writes, if the table takes it. -/
def Kind.insertRow (db : Database) (value type : String) : Kind → Database
  | .user => { db with accessUser := db.accessUser ++ [⟨some value, some type⟩] }
  | .group => { db with accessGroups := db.accessGroups ++ [⟨value, none, some type⟩] }
  | .entitlement => { db with entitlements := db.entitlements ++ [⟨value, some type⟩] }

theorem stored_insertRow {db : Database} {r u : Rule} :
    Stored (r.kind.insertRow db r.value r.purpose.type) u ↔ Stored db u ∨ u = r := by
  have rows : ∀ x, x ∈ u.kind.rows (r.kind.insertRow db r.value r.purpose.type) ↔
      x ∈ u.kind.rows db ∨ (u.kind = r.kind ∧ x = (some r.value, some r.purpose.type)) := by
    intro x
    obtain ⟨kind, value, purpose⟩ := r
    obtain ⟨kind', value', purpose'⟩ := u
    cases kind <;> cases kind' <;> simp [Kind.insertRow, Kind.rows]
  simp only [Stored, rows]
  constructor
  · rintro ⟨t, mem | ⟨kind, row⟩, type⟩
    · exact .inl ⟨t, mem, type⟩
    · obtain ⟨value, rfl⟩ := Prod.mk.inj row
      have purpose : u.purpose = r.purpose := (purpose_of_type (sqlEq_refl _) type).symm
      refine .inr ?_
      cases u
      cases r
      cases value
      cases kind
      cases purpose
      rfl
  · rintro (⟨t, mem, type⟩ | rfl)
    · exact ⟨t, .inl mem, type⟩
    · exact ⟨_, .inr ⟨rfl, rfl⟩, sqlEq_refl _⟩

/-- What a statement that inserts a rule leaves behind. -/
theorem stored_insertInto {fails : Bool} {write : Database → Option Database} {r : Rule} {w : World}
    (written : write w.db = none ∧ Taken w.db r ∨
      write w.db = some (r.kind.insertRow w.db r.value r.purpose.type) ∧ ¬ Taken w.db r) (u : Rule) :
    Stored ((insertInto fails write).run w).2.db u ↔
      Stored w.db u ∨ (u = r ∧ fails = false ∧ ¬ Taken w.db r) := by
  rw [insertInto, Prog.run_atom]
  cases fails with
  | true => simp
  | false =>
    rcases written with ⟨refused, taken⟩ | ⟨accepted, free⟩
    · simp [refused, taken]
    · simp [accepted, free, stored_insertRow]

/-- An insert without a value adds no rule. -/
theorem stored_insertInto_null {fails : Bool} {write : Database → Option Database} {w : World}
    {u : Rule} (same : ∀ db, write w.db = some db → (Stored db u ↔ Stored w.db u)) :
    Stored ((insertInto fails write).run w).2.db u ↔ Stored w.db u := by
  rw [insertInto, Prog.run_atom]
  split
  · exact Iff.rfl
  · split
    · exact Iff.rfl
    · rename_i db written
      exact same db written

theorem stored_addRule {c : ConsoleCalls} {p : Parameters} {selector property : String}
    {purpose : Purpose} {w : World} (u : Rule) :
    Stored ((addRule c p selector property purpose.type).run w).2.db u ↔ Stored w.db u ∨
      (added p selector property purpose = .add u ∧ c.statement 0 = false ∧ ¬ Taken w.db u) := by
  have inserted : ∀ kind value, (u = ⟨kind, value, purpose⟩ ∧ c.statement 0 = false ∧
        ¬ Taken w.db ⟨kind, value, purpose⟩) ↔
      (Submission.add ⟨kind, value, purpose⟩ = .add u ∧ c.statement 0 = false ∧ ¬ Taken w.db u) := by
    intro kind value
    constructor
    · rintro ⟨rfl, rest⟩
      exact ⟨rfl, rest⟩
    · rintro ⟨eq, rest⟩
      cases eq
      exact ⟨rfl, rest⟩
  rw [addRule, added]
  cases p.getParameter selector with
  | none => exact (or_iff_left (by rintro ⟨h, -⟩; cases h)).symm
  | some selectedType =>
    rw [deref, Prog.run_bind_ok (Prog.run_pure _ _), Option.bind_some, selected]
    split
    · cases p.getParameter property with
      | none =>
        rw [stored_insertInto_null]
        · simp
        · rintro db written
          cases written
          obtain ⟨kind, value, purpose'⟩ := u
          cases kind <;> simp [Stored, Kind.rows]
      | some value =>
        rw [stored_insertInto (r := ⟨.user, value, purpose⟩) (.inr ⟨rfl, fun taken => taken.1 rfl⟩),
          inserted]
    · split
      · cases p.getParameter property with
        | none =>
          rw [stored_insertInto_null (by rintro db ⟨⟩)]
          simp
        | some value =>
          rw [stored_insertInto (r := ⟨.group, value, purpose⟩), inserted]
          by_cases taken : w.db.accessGroups.any (fun r => sqlEq (some r.groupurn) (some value)) = true
          · refine .inl ⟨if_pos taken, by simp, ?_⟩
            simpa [Kind.rows] using taken
          · refine .inr ⟨if_neg taken, fun found => taken ?_⟩
            simpa [Kind.rows] using found.2
      · split
        · cases p.getParameter property with
          | none =>
            rw [stored_insertInto_null (by rintro db ⟨⟩)]
            simp
          | some value =>
            rw [stored_insertInto (r := ⟨.entitlement, value, purpose⟩), inserted]
            by_cases taken :
                w.db.entitlements.any (fun r => sqlEq (some r.entitlement) (some value)) = true
            · refine .inl ⟨if_pos taken, by simp, ?_⟩
              simpa [Kind.rows] using taken
            · refine .inr ⟨if_neg taken, fun found => taken ?_⟩
              simpa [Kind.rows] using found.2
        · simp

/-! ## Requests -/

/-- A general administrator is let through; what an exception interrupts stays as it is. -/
theorem posted_eq {config : AdminConfig} {request : AdminRequest}
    (admin : listed config.pcadminlist request.remoteUser = true) (w : World) :
    posted config w request =
      ((accessForms (calls request.parameters) request.parameters).run w).2 := by
  rw [posted, handlePostOfAddAC, Prog.run_bind_ok (run_refusedAC admin w)]
  simp only [Bool.false_eq_true, if_false]
  rw [Prog.run_bind, Prog.run_tryCatch]
  have connect : connected (calls request.parameters)
      (accessForms (calls request.parameters) request.parameters) =
        accessForms (calls request.parameters) request.parameters := rfl
  rw [connect]
  rcases (accessForms (calls request.parameters) request.parameters).run w with ⟨r | r, w'⟩ <;> rfl

theorem run_removals {c : ConsoleCalls} {p : Parameters} {purpose : Purpose}
    (available : ∀ i, c.statement i = false) (w : World) :
    ((deleteMarked c (ruleDeletions purpose.stem purpose.type) p).run w).2.db =
      (marked (ruleDeletions purpose.stem purpose.type) p).foldl (removeMarked p) w.db := by
  have known : ∀ d ∈ ruleDeletions purpose.stem purpose.type, d.table.knows d.columns = true := by
    intro d mem
    obtain ⟨kind, rfl⟩ := mem_ruleDeletions.mp mem
    cases kind <;> rfl
  rw [run_deleteMarked p available known]

/-- What the tables hold after a request, in terms of what it submits. -/
theorem stored_posted {config : AdminConfig} {request : AdminRequest}
    (admin : listed config.pcadminlist request.remoteUser = true) (w : World) (u : Rule) :
    Stored (posted config w request).db u ↔
      (Stored w.db u ∧ ∀ rs, submission request.parameters = .remove rs → ∀ r ∈ rs, ¬ Alike u r) ∨
        (submission request.parameters = .add u ∧ u.value.length ≤ u.kind.width ∧
          ¬ Taken w.db u) := by
  rw [posted_eq admin]
  generalize request.parameters = p
  have adding : ∀ selector property purpose,
      submission p = added p selector property purpose →
      (Stored ((addRule (calls p) p selector property purpose.type).run w).2.db u ↔
        (Stored w.db u ∧ ∀ rs, submission p = .remove rs → ∀ r ∈ rs, ¬ Alike u r) ∨
          (submission p = .add u ∧ u.value.length ≤ u.kind.width ∧ ¬ Taken w.db u)) := by
    intro selector property purpose submits
    have never : ∀ rs, submission p ≠ .remove rs := by
      intro rs
      rw [submits, added]
      split <;> simp
    have fits : submission p = .add u →
        ((calls p).statement 0 = false ↔ u.value.length ≤ u.kind.width) := by
      intro add
      simp [calls, add]
    rw [stored_addRule, ← submits]
    constructor
    · rintro (there | ⟨add, written, free⟩)
      · exact .inl ⟨there, fun rs remove => absurd remove (never rs)⟩
      · exact .inr ⟨add, (fits add).mp written, free⟩
    · rintro (⟨there, -⟩ | ⟨add, short, free⟩)
      · exact .inl there
      · exact .inr ⟨add, (fits add).mpr short, free⟩
  have removing : ∀ purpose : Purpose, submission p = .remove (flagged p purpose) →
      (Stored ((deleteMarked (calls p) (ruleDeletions purpose.stem purpose.type) p).run w).2.db u ↔
        (Stored w.db u ∧ ∀ rs, submission p = .remove rs → ∀ r ∈ rs, ¬ Alike u r) ∨
          (submission p = .add u ∧ u.value.length ≤ u.kind.width ∧ ¬ Taken w.db u)) := by
    intro purpose submits
    have available : ∀ i, (calls p).statement i = false := by
      intro i
      simp [calls, submits]
    rw [run_removals available, stored_removeMarked, submits]
    simp
  rw [accessForms]
  by_cases add : submitted p "addformsubmitted" = true
  · rw [if_pos add]
    exact adding _ _ .login (by rw [submission, if_pos add])
  rw [if_neg add]
  by_cases addda : submitted p "adddaformsubmitted" = true
  · rw [if_pos addda]
    exact adding _ _ .domainAdmin (by rw [submission, if_neg add, if_pos addda])
  rw [if_neg addda]
  by_cases access : submitted p "accessformsubmitted" = true
  · rw [if_pos access]
    exact removing .login (by rw [submission, if_neg add, if_neg addda, if_pos access])
  rw [if_neg access]
  by_cases daa : submitted p "daaformsubmitted" = true
  · rw [if_pos daa]
    exact removing .domainAdmin
      (by rw [submission, if_neg add, if_neg addda, if_neg access, if_pos daa])
  rw [if_neg daa]
  have nothing : submission p = .nothing := by
    rw [submission, if_neg add, if_neg addda, if_neg access, if_neg daa]
  simp [nothing]

/-- The condition on one request. A rule that is added is there already, or it fits its column
and, for a group or an entitlement, the table has no row of that value for whatever purpose. A
rule that is removed is not there in another spelling that the database takes for the same. -/
def Clear (db : Database) : Submission → Prop
  | .nothing => True
  | .add r => Stored db r ∨ (r.value.length ≤ r.kind.width ∧ ¬ Taken db r)
  | .remove rs => ∀ r ∈ rs, ∀ u, Stored db u → Alike u r → u ∈ rs

theorem follows_iff_clear {config : AdminConfig} {viewer request : AdminRequest}
    (viewing : listed config.pcadminlist viewer.remoteUser = true)
    (admin : listed config.pcadminlist request.remoteUser = true) (w : World) :
    shown config viewer (posted config w request) =
        Submission.apply (shown config viewer w) (submission request.parameters) ↔
      Clear w.db (submission request.parameters) := by
  rw [Set.ext_iff]
  simp only [mem_shown viewing, stored_posted admin]
  cases submission request.parameters with
  | nothing => simp [Submission.apply, Clear, mem_shown viewing]
  | add r =>
    simp only [Submission.apply, Clear, Set.mem_insert_iff, mem_shown viewing, reduceCtorEq,
      false_implies, implies_true, and_true, Submission.add.injEq]
    constructor
    · intro same
      rcases (same r).mpr (.inl rfl) with there | ⟨-, written⟩
      · exact .inl there
      · exact .inr written
    · rintro clear u
      constructor
      · rintro (there | ⟨rfl, -⟩)
        · exact .inr there
        · exact .inl rfl
      · rintro (rfl | there)
        · rcases clear with there | written
          · exact .inl there
          · exact .inr ⟨rfl, written⟩
        · exact .inl there
  | remove rs =>
    simp only [Submission.apply, Clear, Set.mem_sdiff, Set.mem_ofPred_eq, mem_shown viewing,
      reduceCtorEq, false_and, or_false, Submission.remove.injEq, forall_eq']
    constructor
    · intro same r flag u there alike
      by_contra spared
      exact ((same u).mpr ⟨there, spared⟩).2 r flag alike
    · intro clear u
      constructor
      · rintro ⟨there, others⟩
        exact ⟨there, fun flag => others u flag ⟨rfl, rfl, sqlEq_refl _⟩⟩
      · rintro ⟨there, spared⟩
        exact ⟨there, fun r flag alike => spared (clear r flag u there alike)⟩

def console : AdminConfig := ⟨some "root@x", none, none, none⟩

def byRoot (entries : List (String × String)) (distinct : (entries.map Prod.fst).Nodup) :
    AdminRequest := ⟨some "root@x", ⟨entries, distinct⟩⟩

/-- A login rule for a group. -/
def staffMayLogin : AdminRequest :=
  byRoot [("addformsubmitted", "1"), ("typeselector", "group"), ("userproperty", "urn:staff")]
    (by decide)

/-- A Domain Admin rule for another group. -/
def opsMayAdminister : AdminRequest :=
  byRoot [("adddaformsubmitted", "1"), ("daselector", "group"), ("daproperty", "urn:ops")]
    (by decide)

/-- A Domain Admin rule for the group that may log in already. -/
def staffMayAdminister : AdminRequest :=
  byRoot [("adddaformsubmitted", "1"), ("daselector", "group"), ("daproperty", "urn:staff")]
    (by decide)

end AccessRules
