import Proconsul.Surroundings

/-!
# Who may use what: login, checkout and Domain Admin rules

`canUseApp`, `canUseDA` and `canUseCO` ask up to three tables in turn, each
in a `try` block of its own whose `catch` clause answers no. The decision is
compared with the documented one, in which any single matching rule is
enough.
-/

namespace Access

open Program Schema Text Surroundings

/-- Outcomes of the queries behind one decision, loops indexed by position. -/
structure AccessCalls where
  user : Bool
  entitlement : Nat → Bool
  group : Nat → Bool

def AccessCalls.noOutage : AccessCalls := ⟨false, fun _ => false, fun _ => false⟩

def uidMissing (au : AuthUser) : Bool :=
  match au.uid with
  | none => true
  | some uid => equalsIgnoreCase uid ""

/-! ## Rules present in the tables -/

def hasUserRule (db : Database) (purpose : String) (au : AuthUser) : Bool :=
  db.accessUser.any (fun r => sqlEq r.eppn au.uid && sqlEq r.type (some purpose))

def hasEntitlementRule (db : Database) (purpose : String) (au : AuthUser) : Bool :=
  au.entitlements.any (fun e => db.entitlements.any
    (fun r => sqlEq (some r.entitlement) (some e) && sqlEq r.target (some purpose)))

def hasGroupRule (db : Database) (purpose : String) (au : AuthUser) : Bool :=
  au.memberships.any (fun g => db.accessGroups.any
    (fun r => sqlEq (some r.groupurn) (some g) && sqlEq r.type (some purpose)))

/-! ## The three `try` blocks -/

/-- A block answers `some b` when the method returns there, `none` on fall-through. -/
def userBlock (fails : Bool) (purpose : String) (au : AuthUser) : Run (Option Bool) :=
  Prog.orElse (do
    let found ← query fails .accessUser ["eppn", "type"] (fun db => hasUserRule db purpose au)
    return if found then some true else none) (some false)

/-- `select entitlement from entitlements where entitlement = ? and type = ...`.
The table has no column `type`, so there is nothing to compare the purpose with. -/
def entitlementQuery (fails : Bool) (e : String) : Run Bool :=
  query fails .entitlements ["entitlement", "type"]
    (fun db => db.entitlements.any (fun r => sqlEq (some r.entitlement) (some e)))

/-- `canUseDA`: the loop returns on the first entitlement found. -/
def entitlementBlockDA (fails : Nat → Bool) (au : AuthUser) : Run (Option Bool) :=
  if au.entitlements.isEmpty then pure none
  else Prog.orElse (do
    let found ← au.entitlements.zipIdx.anyM (fun e => entitlementQuery (fails e.2) e.1)
    return if found then some true else none) (some false)

/-- `canUseApp`: the answer is stored in `rs2`, while the test reads `rs3`,
which is still null. The loop runs its queries and never returns true. -/
def entitlementBlockApp (fails : Nat → Bool) (au : AuthUser) : Run (Option Bool) :=
  if au.entitlements.isEmpty then pure none
  else Prog.orElse (do
    au.entitlements.zipIdx.forM (fun e => do
      let _ ← entitlementQuery (fails e.2) e.1)
    return none) (some false)

def groupBlock (fails : Nat → Bool) (purpose : String) (au : AuthUser) : Run Bool :=
  if au.memberships.isEmpty then pure false
  else Prog.orElse (au.memberships.zipIdx.anyM (fun g =>
    query (fails g.2) .accessGroups ["groupurn", "type"] (fun db => db.accessGroups.any
      (fun r => sqlEq (some r.groupurn) (some g.1) && sqlEq r.type (some purpose))))) false

/-! ## The decisions -/

def canUseCO (fails : Bool) (au : AuthUser) : Run Bool := do
  if uidMissing au then return false
  match ← userBlock fails "co" au with
  | some b => return b
  | none => return false

/-- The order in which `canUseDA` and `canUseApp` try their three blocks. -/
def inTurn (au : AuthUser) (user entitlement : Run (Option Bool)) (group : Run Bool) :
    Run Bool := do
  if uidMissing au then return false
  match ← user with
  | some b => return b
  | none =>
    match ← entitlement with
    | some b => return b
    | none => group

def canUseDA (c : AccessCalls) (au : AuthUser) : Run Bool :=
  inTurn au (userBlock c.user "da" au) (entitlementBlockDA c.entitlement au)
    (groupBlock c.group "da" au)

def canUseApp (c : AccessCalls) (au : AuthUser) : Run Bool :=
  inTurn au (userBlock c.user "proconsul" au) (entitlementBlockApp c.entitlement au)
    (groupBlock c.group "proconsul" au)

/-- What the code decides when nothing fails: one entitlement is enough to
lose every group rule. -/
def grants (db : Database) (purpose : String) (au : AuthUser) : Bool :=
  !uidMissing au &&
    (hasUserRule db purpose au || (au.entitlements.isEmpty && hasGroupRule db purpose au))

/-! ## The decisions only read -/

theorem reads_userBlock (fails : Bool) (purpose : String) (au : AuthUser) :
    (userBlock fails purpose au).Reads :=
  Prog.steps_orElse (Prog.steps_bind (reads_query _ _ _ _) (fun _ => Prog.steps_pure _)) _

theorem reads_entitlementBlockDA (fails : Nat → Bool) (au : AuthUser) :
    (entitlementBlockDA fails au).Reads := by
  rw [entitlementBlockDA]
  split
  · exact Prog.steps_pure _
  · exact Prog.steps_orElse (Prog.steps_bind (Prog.steps_anyM (fun _ => reads_query _ _ _ _) _)
      (fun _ => Prog.steps_pure _)) _

theorem reads_entitlementBlockApp (fails : Nat → Bool) (au : AuthUser) :
    (entitlementBlockApp fails au).Reads := by
  rw [entitlementBlockApp]
  split
  · exact Prog.steps_pure _
  · exact Prog.steps_orElse (Prog.steps_bind (Prog.steps_forM (fun _ =>
      Prog.steps_bind (reads_query _ _ _ _) (fun _ => Prog.steps_pure _)) _)
      (fun _ => Prog.steps_pure _)) _

theorem reads_groupBlock (fails : Nat → Bool) (purpose : String) (au : AuthUser) :
    (groupBlock fails purpose au).Reads := by
  rw [groupBlock]
  split
  · exact Prog.steps_pure _
  · exact Prog.steps_orElse (Prog.steps_anyM (fun _ => reads_query _ _ _ _) _) _

theorem reads_inTurn {au : AuthUser} {user entitlement : Run (Option Bool)} {group : Run Bool}
    (hu : user.Reads) (he : entitlement.Reads) (hg : group.Reads) :
    (inTurn au user entitlement group).Reads := by
  rw [inTurn]
  split
  · exact Prog.steps_pure _
  · refine Prog.steps_bind hu (fun b => ?_)
    cases b with
    | some b => exact Prog.steps_pure _
    | none =>
      refine Prog.steps_bind he (fun b => ?_)
      cases b with
      | some b => exact Prog.steps_pure _
      | none => exact hg

theorem reads_canUseDA (c : AccessCalls) (au : AuthUser) : (canUseDA c au).Reads :=
  reads_inTurn (reads_userBlock _ _ _) (reads_entitlementBlockDA _ _) (reads_groupBlock _ _ _)

theorem reads_canUseApp (c : AccessCalls) (au : AuthUser) : (canUseApp c au).Reads :=
  reads_inTurn (reads_userBlock _ _ _) (reads_entitlementBlockApp _ _) (reads_groupBlock _ _ _)

theorem reads_canUseCO (fails : Bool) (au : AuthUser) : (canUseCO fails au).Reads := by
  rw [canUseCO]
  split
  · exact Prog.steps_pure _
  · refine Prog.steps_bind (reads_userBlock _ _ _) (fun b => ?_)
    cases b <;> exact Prog.steps_pure _

/-! ## Execution of the blocks -/

theorem uidMissing_iff {au : AuthUser} : uidMissing au = false ↔ ∃ u, au.uid = some u ∧ u ≠ "" := by
  rcases au with ⟨_ | u, ms, es⟩
  · simp [uidMissing]
  · simp [uidMissing, equalsIgnoreCase, foldCase]

theorem run_userBlock (fails : Bool) (purpose : String) (au : AuthUser) (w : World) :
    (userBlock fails purpose au).run w =
      (.ok (if fails then some false else if hasUserRule w.db purpose au then some true else none),
        w) := by
  rw [userBlock, Prog.run_orElse, Prog.run_bind, run_query rfl]
  cases fails <;> rfl

theorem run_entitlementQuery (fails : Bool) (e : String) (w : World) :
    (entitlementQuery fails e).run w = (.error .sqlException, w) :=
  run_query_unknown rfl fails _ w

/-- Any entitlement at all makes the block return false. -/
theorem run_entitlementBlockDA (fails : Nat → Bool) (au : AuthUser) (w : World) :
    (entitlementBlockDA fails au).run w =
      (.ok (if au.entitlements.isEmpty then none else some false), w) := by
  rw [entitlementBlockDA]
  cases h : au.entitlements with
  | nil => rfl
  | cons e rest =>
    simp [Prog.run_orElse, Prog.run_bind, run_entitlementQuery]

theorem run_entitlementBlockApp (fails : Nat → Bool) (au : AuthUser) (w : World) :
    (entitlementBlockApp fails au).run w =
      (.ok (if au.entitlements.isEmpty then none else some false), w) := by
  rw [entitlementBlockApp]
  cases h : au.entitlements with
  | nil => rfl
  | cons e rest =>
    simp [Prog.run_orElse, Prog.run_bind, run_entitlementQuery]

theorem any_zipIdx_fst {α : Type} (xs : List α) (f : α → Bool) :
    xs.zipIdx.any (fun p => f p.1) = xs.any f := by
  have h := List.any_map (l := xs.zipIdx) (f := Prod.fst) (p := f)
  rw [List.zipIdx_map_fst] at h
  exact h.symm

/-- The group loop only reads, and whatever fails, a yes is backed by a rule. -/
theorem run_groupBlock (fails : Nat → Bool) (purpose : String) (au : AuthUser) (w : World) :
    ∃ b, (groupBlock fails purpose au).run w = (.ok b, w) ∧
      (b = true → hasGroupRule w.db purpose au = true) := by
  rw [groupBlock]
  split
  · exact ⟨false, rfl, by simp⟩
  · obtain ⟨b, hrun, yes⟩ := Prog.run_orElse_anyM
      (fun g => reads_query (fails g.2) .accessGroups ["groupurn", "type"] (fun db =>
        db.accessGroups.any (fun r => sqlEq (some r.groupurn) (some g.1) &&
          sqlEq r.type (some purpose)))) au.memberships.zipIdx w
    refine ⟨b, hrun, fun hb => ?_⟩
    obtain ⟨g, hg, hq⟩ := yes hb
    rw [run_query rfl] at hq
    cases hf : fails g.2 with
    | true => rw [hf] at hq; cases hq
    | false =>
      rw [hf] at hq
      have found := Except.ok.inj (Prod.mk.inj hq).1
      exact List.any_eq_true.mpr ⟨g.1, List.fst_mem_of_mem_zipIdx hg, found⟩

theorem run_groupBlock_noOutage (purpose : String) (au : AuthUser) (w : World) :
    (groupBlock (fun _ => false) purpose au).run w = (.ok (hasGroupRule w.db purpose au), w) := by
  rw [groupBlock]
  cases h : au.memberships with
  | nil => simp [hasGroupRule, h]
  | cons g rest =>
    rw [if_neg (by simp), Prog.run_orElse, Prog.run_anyM_eq (fun g _ => run_query rfl false _ w)]
    have same := any_zipIdx_fst (g :: rest) (fun g => w.db.accessGroups.any
      (fun r => sqlEq (some r.groupurn) (some g) && sqlEq r.type (some purpose)))
    simp only [hasGroupRule, h, same]

/-! ## Execution of the decisions -/

/-- With a block that any entitlement makes answer no, the decision only reads,
and a yes under any failures is a yes without. -/
theorem run_inTurn {au : AuthUser} {w : World} {entitlement : Run (Option Bool)}
    (hent : entitlement.run w = (.ok (if au.entitlements.isEmpty then none else some false), w))
    (userFails : Bool) (groupFails : Nat → Bool) (purpose : String) :
    ∃ b, (inTurn au (userBlock userFails purpose au) entitlement
        (groupBlock groupFails purpose au)).run w = (.ok b, w) ∧
      (b = true → grants w.db purpose au = true) := by
  obtain ⟨b, hrun, hb⟩ := run_groupBlock groupFails purpose au w
  simp only [inTurn, grants]
  cases hu : uidMissing au with
  | true => exact ⟨false, rfl, by simp⟩
  | false =>
    rw [if_neg (by simp), Prog.run_bind_ok (run_userBlock userFails purpose au w)]
    cases userFails <;> cases hasUserRule w.db purpose au
    all_goals simp only [if_true, if_false, Bool.false_eq_true, Prog.run_bind, hent]
    all_goals cases au.entitlements.isEmpty <;> simp [hrun]
    exact hb

theorem run_inTurn_noOutage {au : AuthUser} {w : World} {entitlement : Run (Option Bool)}
    (hent : entitlement.run w = (.ok (if au.entitlements.isEmpty then none else some false), w))
    (purpose : String) :
    (inTurn au (userBlock false purpose au) entitlement
      (groupBlock (fun _ => false) purpose au)).run w = (.ok (grants w.db purpose au), w) := by
  simp only [inTurn, grants]
  cases hu : uidMissing au with
  | true => rfl
  | false =>
    rw [if_neg (by simp), Prog.run_bind_ok (run_userBlock false purpose au w)]
    cases hasUserRule w.db purpose au
    all_goals simp only [if_true, if_false, Bool.false_eq_true, Prog.run_bind, hent]
    all_goals cases au.entitlements.isEmpty <;> simp [run_groupBlock_noOutage]

theorem run_canUseDA (c : AccessCalls) (au : AuthUser) (w : World) :
    ∃ b, (canUseDA c au).run w = (.ok b, w) ∧ (b = true → grants w.db "da" au = true) :=
  run_inTurn (run_entitlementBlockDA c.entitlement au w) c.user c.group "da"

theorem run_canUseApp (c : AccessCalls) (au : AuthUser) (w : World) :
    ∃ b, (canUseApp c au).run w = (.ok b, w) ∧
      (b = true → grants w.db "proconsul" au = true) :=
  run_inTurn (run_entitlementBlockApp c.entitlement au w) c.user c.group "proconsul"

theorem run_canUseDA_noOutage (au : AuthUser) (w : World) :
    (canUseDA .noOutage au).run w = (.ok (grants w.db "da" au), w) :=
  run_inTurn_noOutage (run_entitlementBlockDA _ au w) "da"

theorem run_canUseApp_noOutage (au : AuthUser) (w : World) :
    (canUseApp .noOutage au).run w = (.ok (grants w.db "proconsul" au), w) :=
  run_inTurn_noOutage (run_entitlementBlockApp _ au w) "proconsul"

/-! ## Comparison with the documented rules -/

/-- The rule set of the README: a known user id and at least one matching rule. -/
def Documented (db : Database) (purpose : String) (au : AuthUser) : Prop :=
  (∃ uid, au.uid = some uid ∧ uid ≠ "") ∧
    (hasUserRule db purpose au = true ∨ hasEntitlementRule db purpose au = true ∨
      hasGroupRule db purpose au = true)

/-- The entitlement block cannot change the outcome: it is not reached, or it
is skipped, or no entitlement or group rule would have applied anyway. -/
def Unaffected (db : Database) (purpose : String) (au : AuthUser) : Prop :=
  uidMissing au = true ∨ hasUserRule db purpose au = true ∨ au.entitlements = [] ∨
    (hasEntitlementRule db purpose au = false ∧ hasGroupRule db purpose au = false)

theorem grants_documented_iff (db : Database) (purpose : String) (au : AuthUser) :
    (grants db purpose au = true ↔ Documented db purpose au) ↔ Unaffected db purpose au := by
  have noEntitlement : au.entitlements = [] → hasEntitlementRule db purpose au = false := by
    intro h
    simp [hasEntitlementRule, h]
  have empty : au.entitlements.isEmpty = true ↔ au.entitlements = [] := List.isEmpty_iff
  rw [Documented, ← uidMissing_iff]
  simp only [grants, Unaffected, Bool.and_eq_true, Bool.or_eq_true, Bool.not_eq_true', empty]
  cases uidMissing au <;> cases hasUserRule db purpose au <;>
    cases he : hasEntitlementRule db purpose au <;> cases hasGroupRule db purpose au <;>
    simp_all

/-- Both decisions agree with the documented rules exactly for those users on
whom the broken entitlement query has no bearing. -/
theorem access_decisions_documented_iff (w : World) (au : AuthUser) :
    ((((canUseApp .noOutage au).run w).1 = .ok true ↔ Documented w.db "proconsul" au) ↔
        Unaffected w.db "proconsul" au) ∧
      ((((canUseDA .noOutage au).run w).1 = .ok true ↔ Documented w.db "da" au) ↔
        Unaffected w.db "da" au) := by
  rw [run_canUseApp_noOutage, run_canUseDA_noOutage]
  simp only [Except.ok.injEq]
  exact ⟨grants_documented_iff w.db "proconsul" au, grants_documented_iff w.db "da" au⟩

def entitledUser : AuthUser := ⟨some "pat@dom.ain", [], ["urn:login", "urn:admin"]⟩

def entitlementWorld : World :=
  { World.empty with db := { Database.empty with
      entitlements := [⟨"urn:login", some "proconsul"⟩, ⟨"urn:admin", some "da"⟩] } }

/-- A user entitled both to log in and to Domain Admin rights gets neither. -/
theorem entitled_user_refused :
    ¬ (((canUseApp .noOutage entitledUser).run entitlementWorld).1 = .ok true ↔
        Documented entitlementWorld.db "proconsul" entitledUser) ∧
      ¬ (((canUseDA .noOutage entitledUser).run entitlementWorld).1 = .ok true ↔
        Documented entitlementWorld.db "da" entitledUser) := by
  rw [run_canUseApp_noOutage, run_canUseDA_noOutage]
  refine ⟨fun h => ?_, fun h => ?_⟩
  · have allowed := h.mpr ⟨⟨_, rfl, by decide⟩, Or.inr (Or.inl (by decide))⟩
    exact absurd (Except.ok.inj allowed) (by decide)
  · have allowed := h.mpr ⟨⟨_, rfl, by decide⟩, Or.inr (Or.inl (by decide))⟩
    exact absurd (Except.ok.inj allowed) (by decide)

end Access
