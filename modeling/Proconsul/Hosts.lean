import Proconsul.Surroundings

/-!
# Which hosts and groups the policy tables name

The lookups behind the host checks of the session handlers. None of them
raises: a failing query yields what has been collected so far, usually
nothing. `hostsForEppn`, `hostsForStatic` and their companions are what the
lookups answer when nothing fails, and every answer under failures is part of
it. In the search for a computer a host name is read as the value of a filter, but
a parenthesis in it stands for itself.
-/

namespace Hosts

open Program Schema Text Surroundings

/-! ## Directory -/

/-- The entry is `base` itself or lies beneath it. -/
def underBase (base dn : String) : Bool :=
  foldCase dn == foldCase base || (',' :: foldCase base).isSuffixOf (foldCase dn)

def hostsUnder (ad : Directory) (base : String) : List String :=
  (ad.computers.filter (fun c => underBase base c.dn)).filterMap
    (fun c => c.dnsHostName.map toLowerCase)

def fqdnsForOu (fails : Bool) (ou : Option String) : Run (List String) :=
  Prog.orElse (do
    let base ← deref ou
    search fails (fun ad => hostsUnder ad base)) []

/-- Among several computers of one name the last one found counts. -/
def ouForFqdn (fails : Bool) (fqdn : Option String) : Run (Option String) :=
  Prog.orElse (search fails (fun ad =>
    (ad.computers.filter (fun c => c.dnsHostName.any (finds (javaString fqdn)))).getLast?.map
      (fun c => dropComponent c.dn))) none

/-! ## Hosts of a user or a group -/

/-- Outcomes of one table query and of the directory searches for its rows. -/
structure HostCalls where
  rows : Bool
  ou : Nat → Bool

def HostCalls.noOutage : HostCalls := ⟨false, fun _ => false⟩

/-- `s != null && ! s.equals("")`. -/
def given (s : Option String) : Option String := s.filter (· != "")

theorem given_some {s : String} (h : s ≠ "") : given (some s) = some s := by simp [given, h]

def rowHosts (ad : Directory) (r : HostMapRow) : List String :=
  (given r.fqdn).toList ++ ((given r.ou).map (hostsUnder ad)).getD []

def addRow (fails : Nat → Bool) (retval : List String) (r : HostMapRow × Nat) :
    Run (List String) := do
  let direct := retval ++ (given r.1.fqdn).toList
  match given r.1.ou with
  | none => return direct
  | some ou => return direct ++ (← fqdnsForOu (fails r.2) (some ou))

def fqdnsFor (c : HostCalls) (t : Table) (subject : String) (select : Database → List HostMapRow) :
    Run (List String) :=
  Prog.orElse (do
    let rows ← query c.rows t ["fqdn", "ou", subject] select
    rows.zipIdx.foldlM (addRow c.ou) []) []

def explicitRows (eppn : Option String) (db : Database) : List HostMapRow :=
  db.explicitHosts.filter (fun r => sqlEq r.subject eppn)

def groupRows (urn : String) (db : Database) : List HostMapRow :=
  db.groupHost.filter (fun r => sqlEq r.subject (some urn))

def fqdnsForEppn (c : HostCalls) (eppn : Option String) : Run (List String) :=
  fqdnsFor c .explicitHosts "eppn" (explicitRows eppn)

def fqdnsForGroupUrn (c : HostCalls) (urn : String) : Run (List String) :=
  fqdnsFor c .groupHost "groupurn" (groupRows urn)

def hostsForStatic (db : Database) (eppn : Option String) : List String :=
  (db.staticHost.filter (fun r => sqlEq r.eppn eppn)).filterMap (fun r => given r.fqdn)

def fqdnsForStatic (fails : Bool) (eppn : Option String) : Run (List String) :=
  Prog.orElse (query fails .staticHost ["fqdn", "eppn"] (fun db => hostsForStatic db eppn)) []

def getDomainAdminFQDNs (fails : Bool) : Run (List (Option String)) :=
  Prog.orElse (query fails .domainAdminHosts ["fqdn"] (fun db => db.domainAdminHosts)) []

/-! ## Delegated administration -/

structure DelegateCalls where
  group : Nat → Bool
  ou : Nat → Bool

def DelegateCalls.noOutage : DelegateCalls := ⟨fun _ => false, fun _ => false⟩

def delegations (db : Database) (urn : String) : List DelegateRow :=
  db.delegateGroups.filter (fun r => sqlEq r.groupurn (some urn))

/-- One pass of the loop. Only the first row of the group is looked at. -/
def adminThrough (c : DelegateCalls) (fqdn : String) (g : String × Nat) : Run Bool := do
  let row ← query (c.group g.2) .delegateGroups ["groupurn", "ou"]
    (fun db => (delegations db g.1).head?)
  match row with
  | none => return false
  | some r => return (← fqdnsForOu (c.ou g.2) r.ou).contains fqdn

def canAdminFQDN (c : DelegateCalls) (au : AuthUser) (fqdn : String) : Run Bool :=
  if au.memberships.isEmpty then pure false
  else Prog.orElse (au.memberships.zipIdx.anyM (adminThrough c fqdn)) false

/-- The loop stops at the first query that raises and keeps what it has. -/
def collectOus (fails : Nat → Bool) : List (String × Nat) → List String → Run (List String)
  | [], retval => pure retval
  | g :: rest, retval => do
    match ← Prog.attempt (query (fails g.2) .delegateGroups ["ou", "groupurn"]
        (fun db => (delegations db g.1).filterMap DelegateRow.ou)) with
    | none => return retval
    | some ous => collectOus fails rest (retval ++ ous)

def delegatedOusForUser (fails : Nat → Bool) (au : AuthUser) : Run (Option (List String)) :=
  if au.memberships.isEmpty then pure none
  else do return some (← collectOus fails au.memberships.zipIdx [])

def groupDnForOu (fails : Bool) (ou : String) : Run (Option String) :=
  Prog.orElse (query fails .ouGroup ["groupdn", "ou"] (fun db =>
    (db.ouGroup.filter (fun r => sqlEq (some r.ou) (some ou))).getLast?.bind OuGroupRow.groupdn)) none

/-- Each OU is looked up for the test, again for the log line inside the `if`,
and again for the value added. -/
def groupDNsForDelegate (ous : Nat → Bool) (fails : Nat → Bool) (au : AuthUser) :
    Run (Option (List (Option String))) := do
  match ← delegatedOusForUser ous au with
  | none => return none
  | some managed =>
    if managed.isEmpty then return none
    else
      let retval ← managed.zipIdx.foldlM (fun retval o => do
        if retval.contains (← groupDnForOu (fails (3 * o.2)) o.1) then return retval
        else
          let _ ← groupDnForOu (fails (3 * o.2 + 1)) o.1
          return retval ++ [← groupDnForOu (fails (3 * o.2 + 2)) o.1]) []
      return some retval

/-- `groupDnForFQDN` walks from the host's OU towards the root. `steps` bounds
the walk; each pass removes a component, so the length of the DN suffices. -/
def walkUp (fails : Nat → Bool) : Nat → Nat → String → Run (Option String)
  | 0, _, _ => pure none
  | steps + 1, i, checkOU => do
    if containsChar checkOU ',' then
      match ← groupDnForOu (fails i) checkOU with
      | some g => return some g
      | none => walkUp fails steps (i + 1) (dropComponent checkOU)
    else return none

def groupDnForFQDN (find : Bool) (fails : Nat → Bool) (fqdn : Option String) :
    Run (Option String) := do
  match ← ouForFqdn find fqdn with
  | none => return none
  | some ou => walkUp fails (ou.length + 1) 0 ou

/-! ## Groups and gateways -/

def groupDnsForEppn (fails : Bool) (eppn : Option String) : Run (List (Option String)) :=
  Prog.orElse (query fails .explicitGroups ["groupdn", "eppn"] (fun db =>
    (db.explicitGroups.filter (fun r => sqlEq r.eppn eppn)).map ExplicitGroupRow.groupdn)) []

def requiredGatewayFQDN (fails : Bool) (fqdn : Option String) : Run (Option String) :=
  Prog.orElse (query fails .hostGateway ["gateway", "fqdn"] (fun db =>
    (db.hostGateway.filter (fun r => sqlEq r.fqdn fqdn)).head?.bind GatewayRow.gateway)) none

/-! ## The lookups only read -/

theorem reads_fqdnsForOu (fails : Bool) (ou : Option String) : (fqdnsForOu fails ou).Reads :=
  Prog.steps_orElse (Prog.steps_bind (steps_deref ou) (fun _ => reads_search fails _)) _

theorem reads_ouForFqdn (fails : Bool) (fqdn : Option String) : (ouForFqdn fails fqdn).Reads :=
  Prog.steps_orElse (reads_search fails _) _

theorem reads_addRow (fails : Nat → Bool) (retval : List String) (r : HostMapRow × Nat) :
    (addRow fails retval r).Reads := by
  rw [addRow]
  cases given r.1.ou with
  | none => exact Prog.steps_pure _
  | some ou => exact Prog.steps_bind (reads_fqdnsForOu _ _) (fun _ => Prog.steps_pure _)

theorem reads_fqdnsFor (c : HostCalls) (t : Table) (subject : String)
    (select : Database → List HostMapRow) : (fqdnsFor c t subject select).Reads :=
  Prog.steps_orElse (Prog.steps_bind (reads_query _ _ _ _)
    (fun _ => Prog.steps_foldlM (reads_addRow c.ou) _ _)) _

theorem reads_fqdnsForGroupUrn (c : HostCalls) (urn : String) : (fqdnsForGroupUrn c urn).Reads :=
  reads_fqdnsFor _ _ _ _

theorem reads_fqdnsForStatic (fails : Bool) (eppn : Option String) :
    (fqdnsForStatic fails eppn).Reads :=
  Prog.steps_orElse (reads_query _ _ _ _) _

theorem reads_getDomainAdminFQDNs (fails : Bool) : (getDomainAdminFQDNs fails).Reads :=
  Prog.steps_orElse (reads_query _ _ _ _) _

theorem reads_adminThrough (c : DelegateCalls) (fqdn : String) (g : String × Nat) :
    (adminThrough c fqdn g).Reads := by
  refine Prog.steps_bind (reads_query _ _ _ _) (fun row => ?_)
  cases row with
  | none => exact Prog.steps_pure _
  | some r => exact Prog.steps_bind (reads_fqdnsForOu _ _) (fun _ => Prog.steps_pure _)

theorem reads_canAdminFQDN (c : DelegateCalls) (au : AuthUser) (fqdn : String) :
    (canAdminFQDN c au fqdn).Reads := by
  rw [canAdminFQDN]
  split
  · exact Prog.steps_pure _
  · exact Prog.steps_orElse (Prog.steps_anyM (reads_adminThrough c fqdn) _) _

theorem reads_groupDnForOu (fails : Bool) (ou : String) : (groupDnForOu fails ou).Reads :=
  Prog.steps_orElse (reads_query _ _ _ _) _

theorem reads_collectOus (fails : Nat → Bool) (gs : List (String × Nat)) (retval : List String) :
    (collectOus fails gs retval).Reads := by
  induction gs generalizing retval with
  | nil => exact Prog.steps_pure _
  | cons g rest ih =>
    refine Prog.steps_bind (Prog.steps_attempt (reads_query _ _ _ _)) (fun ous => ?_)
    cases ous with
    | none => exact Prog.steps_pure _
    | some ous => exact ih _

theorem reads_delegatedOusForUser (fails : Nat → Bool) (au : AuthUser) :
    (delegatedOusForUser fails au).Reads := by
  rw [delegatedOusForUser]
  split
  · exact Prog.steps_pure _
  · exact Prog.steps_bind (reads_collectOus _ _ _) (fun _ => Prog.steps_pure _)

theorem reads_groupDNsForDelegate (ous fails : Nat → Bool) (au : AuthUser) :
    (groupDNsForDelegate ous fails au).Reads := by
  refine Prog.steps_bind (reads_delegatedOusForUser ous au) (fun managed => ?_)
  rcases managed with _ | managed
  · exact Prog.steps_pure _
  · dsimp only
    split
    · exact Prog.steps_pure _
    · refine Prog.steps_bind (Prog.steps_foldlM (fun retval o => ?_) _ _) (fun _ => Prog.steps_pure _)
      refine Prog.steps_bind (reads_groupDnForOu _ _) (fun g => ?_)
      split
      · exact Prog.steps_pure _
      · exact Prog.steps_bind (reads_groupDnForOu _ _) (fun _ =>
          Prog.steps_bind (reads_groupDnForOu _ _) (fun _ => Prog.steps_pure _))

theorem reads_walkUp (fails : Nat → Bool) (steps i : Nat) (ou : String) :
    (walkUp fails steps i ou).Reads := by
  induction steps generalizing i ou with
  | zero => exact Prog.steps_pure _
  | succ steps ih =>
    rw [walkUp]
    split
    · refine Prog.steps_bind (reads_groupDnForOu _ _) (fun g => ?_)
      cases g with
      | none => exact ih _ _
      | some g => exact Prog.steps_pure _
    · exact Prog.steps_pure _

theorem reads_groupDnForFQDN (find : Bool) (fails : Nat → Bool) (fqdn : Option String) :
    (groupDnForFQDN find fails fqdn).Reads := by
  refine Prog.steps_bind (reads_ouForFqdn _ _) (fun ou => ?_)
  cases ou with
  | none => exact Prog.steps_pure _
  | some ou => exact reads_walkUp _ _ _ _

/-- The walk to the managing group never raises. -/
theorem delivers_groupDnForFQDN {R : World → World → Prop} (refl : ∀ w, R w w)
    (trans : ∀ s t r, R s t → R t r → R s r) (find : Bool) (fails : Nat → Bool)
    (fqdn : Option String) : (groupDnForFQDN find fails fqdn).Delivers R True (fun _ => True) := by
  have walk : ∀ steps i ou, (walkUp fails steps i ou).Delivers R True (fun _ => True) := by
    intro steps
    induction steps with
    | zero => exact fun _ _ => Prog.delivers_pure refl trivial
    | succ steps ih =>
      intro i ou
      rw [walkUp]
      split
      · refine Prog.delivers_bind_total trans (Prog.delivers_orElse refl trans
          ((reads_groupDnForOu _ _).steps refl) (Prog.returns_any _)) (fun g _ => ?_)
        cases g with
        | none => exact ih _ _
        | some g => exact Prog.delivers_pure refl trivial
      · exact Prog.delivers_pure refl trivial
  refine Prog.delivers_bind_total trans (Prog.delivers_orElse refl trans
    ((reads_ouForFqdn _ _).steps refl) (Prog.returns_any _)) (fun ou _ => ?_)
  cases ou with
  | none => exact Prog.delivers_pure refl trivial
  | some ou => exact walk _ _ _

theorem reads_groupDnsForEppn (fails : Bool) (eppn : Option String) :
    (groupDnsForEppn fails eppn).Reads :=
  Prog.steps_orElse (reads_query _ _ _ _) _

theorem reads_requiredGatewayFQDN (fails : Bool) (fqdn : Option String) :
    (requiredGatewayFQDN fails fqdn).Reads :=
  Prog.steps_orElse (reads_query _ _ _ _) _

/-! ## What the lookups answer -/

def hostsForEppn (db : Database) (ad : Directory) (eppn : Option String) : List String :=
  (explicitRows eppn db).flatMap (rowHosts ad)

def hostsForGroupUrn (db : Database) (ad : Directory) (urn : String) : List String :=
  (groupRows urn db).flatMap (rowHosts ad)

/-- The first delegation of the group covers the host. -/
def covers (db : Database) (ad : Directory) (fqdn : String) (urn : String) : Bool :=
  ((((delegations db urn).head?.bind DelegateRow.ou).map (hostsUnder ad)).getD []).contains fqdn

def administers (db : Database) (ad : Directory) (au : AuthUser) (fqdn : String) : Bool :=
  au.memberships.any (covers db ad fqdn)

theorem run_fqdnsForOu (fails : Bool) (ou : Option String) (w : World) :
    (fqdnsForOu fails ou).run w =
      (.ok (if fails then [] else (ou.map (hostsUnder w.ad)).getD []), w) := by
  rw [fqdnsForOu, Prog.run_orElse, Prog.run_bind]
  cases ou with
  | none => cases fails <;> rfl
  | some ou => cases fails <;> rfl

theorem run_addRow (fails : Nat → Bool) (retval : List String) (r : HostMapRow × Nat) (w : World) :
    ∃ hs, (addRow fails retval r).run w = (.ok (retval ++ hs), w) ∧ hs ⊆ rowHosts w.ad r.1 ∧
      (fails r.2 = false → hs = rowHosts w.ad r.1) := by
  simp only [addRow, rowHosts]
  cases given r.1.ou with
  | none => exact ⟨_, rfl, by simp, by simp⟩
  | some ou =>
    refine ⟨(given r.1.fqdn).toList ++ if fails r.2 then [] else hostsUnder w.ad ou, ?_, ?_, ?_⟩
    · simp [Prog.run_bind, run_fqdnsForOu]
    · cases fails r.2 <;> simp
    · intro h
      simp [h]

theorem run_addRows (fails : Nat → Bool) (rows : List (HostMapRow × Nat)) (retval : List String)
    (w : World) :
    ∃ hs, (rows.foldlM (addRow fails) retval).run w = (.ok (retval ++ hs), w) ∧
      hs ⊆ rows.flatMap (fun r => rowHosts w.ad r.1) ∧
      ((∀ i, fails i = false) → hs = rows.flatMap (fun r => rowHosts w.ad r.1)) := by
  induction rows generalizing retval with
  | nil => exact ⟨[], by simp, by simp, by simp⟩
  | cons r rows ih =>
    obtain ⟨hs, hrun, hsub, heq⟩ := run_addRow fails retval r w
    obtain ⟨hs', hrun', hsub', heq'⟩ := ih (retval ++ hs)
    refine ⟨hs ++ hs', ?_, ?_, ?_⟩
    · rw [List.foldlM_cons, Prog.run_bind_ok hrun, hrun', List.append_assoc]
    · rw [List.flatMap_cons]
      intro h hmem
      rcases List.mem_append.mp hmem with hmem | hmem
      · exact List.mem_append_left _ (hsub hmem)
      · exact List.mem_append_right _ (hsub' hmem)
    · intro calm
      rw [List.flatMap_cons, ← heq (calm r.2), ← heq' calm]

theorem flatMap_zipIdx_fst {α β : Type} (xs : List α) (f : α → List β) :
    xs.zipIdx.flatMap (fun p => f p.1) = xs.flatMap f := by
  have h := List.flatMap_map (l := xs.zipIdx) (f := Prod.fst) (g := f)
  rw [List.zipIdx_map_fst] at h
  exact h.symm

theorem run_fqdnsFor {t : Table} {subject : String} (known : t.knows ["fqdn", "ou", subject] = true)
    (c : HostCalls) (select : Database → List HostMapRow) (w : World) :
    ∃ hs, (fqdnsFor c t subject select).run w = (.ok hs, w) ∧
      hs ⊆ (select w.db).flatMap (rowHosts w.ad) ∧
      (c = .noOutage → hs = (select w.db).flatMap (rowHosts w.ad)) := by
  rw [fqdnsFor, Prog.run_orElse, Prog.run_bind, run_query known]
  rcases c with ⟨_ | _, ous⟩
  · obtain ⟨hs, hrun, hsub, heq⟩ := run_addRows ous (select w.db).zipIdx [] w
    rw [flatMap_zipIdx_fst] at hsub heq
    refine ⟨hs, by simp [hrun], hsub, ?_⟩
    intro calm
    apply heq
    intro i
    exact congrFun (HostCalls.mk.inj calm).2 i
  · exact ⟨[], rfl, List.nil_subset _, fun calm => by cases calm⟩

theorem run_fqdnsForEppn (c : HostCalls) (eppn : Option String) (w : World) :
    ∃ hs, (fqdnsForEppn c eppn).run w = (.ok hs, w) ∧ hs ⊆ hostsForEppn w.db w.ad eppn ∧
      (c = .noOutage → hs = hostsForEppn w.db w.ad eppn) :=
  run_fqdnsFor rfl c (explicitRows eppn) w

theorem run_fqdnsForGroupUrn (c : HostCalls) (urn : String) (w : World) :
    ∃ hs, (fqdnsForGroupUrn c urn).run w = (.ok hs, w) ∧ hs ⊆ hostsForGroupUrn w.db w.ad urn ∧
      (c = .noOutage → hs = hostsForGroupUrn w.db w.ad urn) :=
  run_fqdnsFor rfl c (groupRows urn) w

theorem run_fqdnsForStatic (fails : Bool) (eppn : Option String) (w : World) :
    (fqdnsForStatic fails eppn).run w =
      (.ok (if fails then [] else hostsForStatic w.db eppn), w) := by
  rw [fqdnsForStatic, Prog.run_orElse, run_query rfl]
  cases fails <;> rfl

theorem run_getDomainAdminFQDNs (fails : Bool) (w : World) :
    (getDomainAdminFQDNs fails).run w =
      (.ok (if fails then [] else w.db.domainAdminHosts), w) := by
  rw [getDomainAdminFQDNs, Prog.run_orElse, run_query rfl]
  cases fails <;> rfl

theorem run_adminThrough (c : DelegateCalls) (fqdn : String) (g : String × Nat) (w : World) :
    (adminThrough c fqdn g).run w =
      if c.group g.2 then (.error .sqlException, w)
      else (.ok (!c.ou g.2 && covers w.db w.ad fqdn g.1), w) := by
  rw [adminThrough, Prog.run_bind, run_query rfl, covers]
  cases c.group g.2 with
  | true => rfl
  | false =>
    cases (delegations w.db g.1).head? with
    | none => simp
    | some r => cases h : c.ou g.2 <;> simp [Prog.run_bind, run_fqdnsForOu]

/-- Under any failures, a yes of the delegation check is backed by the tables. -/
theorem run_canAdminFQDN (c : DelegateCalls) (au : AuthUser) (fqdn : String) (w : World) :
    ∃ b, (canAdminFQDN c au fqdn).run w = (.ok b, w) ∧
      (b = true → administers w.db w.ad au fqdn = true) := by
  rw [canAdminFQDN]
  split
  · exact ⟨false, rfl, by simp⟩
  · obtain ⟨b, hrun, yes⟩ := Prog.run_orElse_anyM (reads_adminThrough c fqdn) au.memberships.zipIdx w
    refine ⟨b, hrun, fun hb => ?_⟩
    obtain ⟨g, hg, hq⟩ := yes hb
    refine List.any_eq_true.mpr ⟨g.1, List.fst_mem_of_mem_zipIdx hg, ?_⟩
    rw [run_adminThrough] at hq
    cases hf : c.group g.2 with
    | true => rw [hf] at hq; cases hq
    | false => simpa [hf] using And.right (by simpa [hf] using hq)

end Hosts
