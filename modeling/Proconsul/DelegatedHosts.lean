import Proconsul.Delegation

/-!
# Hosts shown to a delegate and hosts accepted from one

The page shows a delegate the OUs of every row of `delegate_groups` that
belongs to one of the user's groups, and `/fqdn/{ou}` lists the hosts beneath
one of them. The check behind `/deladmin` goes through the same groups but
reads a single row for each. The result says for which hosts the two agree.
-/

namespace DelegatedHosts

open Program Schema Text Surroundings Hosts Delegation

/-! ## The host list of an OU -/

/-- `compareTo` on strings, as `Collections.sort` uses it. -/
def javaLe (a b : String) : Bool := !List.lex (utf16 b) (utf16 a) Nat.blt

def handleFQDNOU (fails : Bool) (ou : String) : Run (List String) := do
  return (← fqdnsForOu fails (some ou)).mergeSort javaLe

theorem run_handleFQDNOU (ou : String) (w : World) :
    (handleFQDNOU false ou).run w = (.ok ((hostsUnder w.ad ou).mergeSort javaLe), w) := by
  rw [handleFQDNOU, Prog.run_bind_ok (run_fqdnsForOu false (some ou) w)]
  rfl

/-! ## The check and the table -/

/-- `fqdnsForOu` lists the host for the OU of the row. -/
def Lists (w : World) (host : String) (row : DelegateRow) : Prop :=
  ∃ hosts, (fqdnsForOu false row.ou).run w = (.ok hosts, w) ∧ host ∈ hosts

/-- Some row of some group of the user lists the host. -/
def TableDelegates (w : World) (au : AuthUser) (host : String) : Prop :=
  ∃ g ∈ au.memberships, ∃ row ∈ delegations w.db g, Lists w host row

/-- The first row of some group of the user lists the host. -/
def FirstRowDelegates (w : World) (au : AuthUser) (host : String) : Prop :=
  ∃ g ∈ au.memberships, ∃ row ∈ (delegations w.db g).head?, Lists w host row

def Accepts (w : World) (au : AuthUser) (host : String) : Prop :=
  ((canAdminFQDN .noOutage au host).run w).1 = .ok true

theorem lists_iff {w : World} {host : String} {row : DelegateRow} :
    Lists w host row ↔ host ∈ (row.ou.map (hostsUnder w.ad)).getD [] := by
  rw [Lists, run_fqdnsForOu]
  simp

theorem covers_iff {w : World} {host g : String} :
    covers w.db w.ad host g = true ↔ ∃ row ∈ (delegations w.db g).head?, Lists w host row := by
  rw [covers, List.contains_iff_mem]
  cases (delegations w.db g).head? with
  | none => simp
  | some row => simp [lists_iff]

theorem accepts_iff {w : World} {au : AuthUser} {host : String} :
    Accepts w au host ↔ FirstRowDelegates w au host := by
  have pass : ∀ g ∈ au.memberships.zipIdx, (adminThrough .noOutage host g).run w =
      (.ok (covers w.db w.ad host g.1), w) := by
    intro g _
    rw [run_adminThrough]
    simp [DelegateCalls.noOutage]
  rw [Accepts, canAdminFQDN, FirstRowDelegates]
  by_cases alone : au.memberships = []
  · simp [alone]
  · rw [if_neg (by simpa using alone), Prog.run_orElse, Prog.run_anyM_eq pass]
    simp only [Except.ok.injEq, List.any_eq_true]
    constructor
    · rintro ⟨g, member, covered⟩
      exact ⟨g.1, List.fst_mem_of_mem_zipIdx member, covers_iff.mp covered⟩
    · rintro ⟨g, member, first⟩
      obtain ⟨i, bound, rfl⟩ := List.getElem_of_mem member
      have indexed : (au.memberships[i], i) ∈ au.memberships.zipIdx :=
        List.mk_mem_zipIdx_iff_getElem?.mpr (List.getElem?_eq_getElem bound)
      exact ⟨_, indexed, covers_iff.mpr first⟩

theorem table_of_first {w : World} {au : AuthUser} {host : String}
    (h : FirstRowDelegates w au host) : TableDelegates w au host := by
  obtain ⟨g, member, row, first, lists⟩ := h
  exact ⟨g, member, row, List.mem_of_mem_head? first, lists⟩

/-- A row that lists the host is its group's first one or a later one. -/
theorem table_cases {w : World} {au : AuthUser} {host : String} (h : TableDelegates w au host) :
    FirstRowDelegates w au host ∨
      ∃ g ∈ au.memberships, ∃ row ∈ (delegations w.db g).tail, Lists w host row := by
  obtain ⟨g, member, row, present, lists⟩ := h
  cases rows : delegations w.db g with
  | nil =>
    rw [rows] at present
    cases present
  | cons first later =>
    rw [rows] at present
    rcases List.mem_cons.mp present with rfl | behind
    · exact .inl ⟨g, member, row, by simp [rows], lists⟩
    · exact .inr ⟨g, member, row, by simpa [rows] using behind, lists⟩

/-- A host listed for an OU on the delegate's page is delegated by the table. -/
theorem table_of_listed {w : World} {au : AuthUser} {host ou : String} {ous hosts : List String}
    (shown : ((delegatedOusForUser (fun _ => false) au).run w).1 = .ok (some ous)) (mem : ou ∈ ous)
    (listing : ((handleFQDNOU false ou).run w).1 = .ok hosts) (listed : host ∈ hosts) :
    TableDelegates w au host := by
  obtain ⟨r, hrun, sound, -⟩ := run_delegatedOusForUser (fun _ => false) au w
  rw [hrun] at shown
  have delegated := sound ous (Except.ok.inj shown) ou mem
  obtain ⟨g, member, named⟩ := List.mem_flatMap.mp delegated
  obtain ⟨row, present, value⟩ := List.mem_filterMap.mp named
  rw [run_handleFQDNOU] at listing
  cases listing
  have beneath : host ∈ hostsUnder w.ad ou := List.mem_mergeSort.mp listed
  exact ⟨g, member, row, present, lists_iff.mpr (by simpa [value] using beneath)⟩

/-- The check agrees with the table, and accepts every host that the pages
list, exactly for the hosts that a later row of a group delegates only
together with the first row of some group. -/
theorem delegated_check_matches_iff (w : World) (au : AuthUser) (host : String) :
    ((Accepts w au host ↔ TableDelegates w au host) ∧
      ∀ ous, ((delegatedOusForUser (fun _ => false) au).run w).1 = .ok (some ous) → ∀ ou ∈ ous,
        ∀ hosts, ((handleFQDNOU false ou).run w).1 = .ok hosts → host ∈ hosts →
          Accepts w au host) ↔
      ((∃ g ∈ au.memberships, ∃ row ∈ (delegations w.db g).tail, Lists w host row) →
        FirstRowDelegates w au host) := by
  constructor
  · rintro ⟨agrees, -⟩ ⟨g, member, row, later, lists⟩
    apply accepts_iff.mp
    apply agrees.mpr
    exact ⟨g, member, row, List.mem_of_mem_tail later, lists⟩
  · intro backed
    have table : TableDelegates w au host → Accepts w au host := by
      intro h
      apply accepts_iff.mpr
      rcases table_cases h with first | later
      · exact first
      · exact backed later
    refine ⟨⟨fun h => table_of_first (accepts_iff.mp h), table⟩, ?_⟩
    intro ous shown ou mem hosts listing listed
    exact table (table_of_listed shown mem listing listed)

/-- One group with two OUs, and a host in the second. -/
def twoOus : World :=
  { World.empty with
    db := { Database.empty with
      delegateGroups := [⟨some "g", some "ou=a,dc=d"⟩, ⟨some "g", some "ou=b,dc=d"⟩] }
    ad := ⟨[], [], [⟨"h", "cn=h,ou=b,dc=d", some "h.d"⟩]⟩ }

/-- The page lists the host for the delegate, and the check refuses it. -/
theorem second_ou_refused :
    ∃ au host, (∃ ous, ((delegatedOusForUser (fun _ => false) au).run twoOus).1 = .ok (some ous) ∧
        ∃ ou ∈ ous, ∃ hosts, ((handleFQDNOU false ou).run twoOus).1 = .ok hosts ∧ host ∈ hosts) ∧
      TableDelegates twoOus au host ∧ ¬ Accepts twoOus au host := by
  refine ⟨⟨some "alice", ["g"], []⟩, "h.d", ?_, ?_, ?_⟩
  · refine ⟨["ou=a,dc=d", "ou=b,dc=d"], by decide +kernel, "ou=b,dc=d", by simp, ["h.d"], ?_, by simp⟩
    decide +kernel
  · exact ⟨"g", by simp, ⟨some "g", some "ou=b,dc=d"⟩, by decide +kernel, ["h.d"], by decide +kernel,
      by simp⟩
  · rw [Accepts]
    decide +kernel

end DelegatedHosts
