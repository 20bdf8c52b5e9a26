import Proconsul.Cleanup

/-!
# The port allocator on its own

`getVncPortNumber` without interference, and what it hands out along any
sequence of allocations and deletions. Two strategies meet at 98: below it the
answer lies above every number in use, from it on the numbers 2 to 98 are
searched. Rows only leave the table through `deletePortFromDB` and the cleanup
script. Interleaved allocations are not considered here.

The columns of `ports` are narrower than those that hosts and owners come from, and
the database refuses a value that its column cannot take.
-/

namespace PortAllocator

open Program Schema Text Surroundings Sessions Cleanup

/-- The even numbers 2 to 98. -/
def Usable (p : Nat) : Prop := p % 2 = 0 ∧ 2 ≤ p ∧ p ≤ 98

def taken (w : World) : List Nat := w.db.ports.map PortRow.portnum

def WellNumbered (w : World) : Prop := ∀ p ∈ taken w, Usable p

instance (p : Nat) : Decidable (Usable p) := inferInstanceAs (Decidable (_ ∧ _ ∧ _))

instance (w : World) : Decidable (WellNumbered w) :=
  inferInstanceAs (Decidable (∀ p ∈ taken w, Usable p))

/-- The row that encumbers a port for a session. -/
def portRow (p : Nat) (s : ProconsulSession) : PortRow :=
  ⟨p, s.fqdn, s.targetUser.sAMAccountName, s.owner.uid⟩

/-- Its values can be stored in their columns. -/
def fits (s : ProconsulSession) : Bool :=
  storable 80 s.fqdn && storable 80 s.targetUser.sAMAccountName && storable 80 s.owner.uid

/-- No statement fails but for the insert of a row that does not fit. -/
def storing (s : ProconsulSession) : PortCalls := ⟨false, fun _ => false, !fits s⟩

/-! ## The number that is tried -/

theorem any_portnum (w : World) (p : Nat) :
    w.db.ports.any (fun r => r.portnum == p) = decide (p ∈ taken w) := by
  rw [Bool.eq_iff_iff, List.any_eq_true, decide_eq_true_iff, taken, List.mem_map]
  constructor
  · rintro ⟨r, mem, eq⟩
    exact ⟨r, mem, beq_iff_eq.mp eq⟩
  · rintro ⟨r, mem, eq⟩
    exact ⟨r, mem, beq_iff_eq.mpr eq⟩

theorem taken_le {w : World} {p : Nat} (mem : p ∈ taken w) : p ≤ maxPort w.db := by
  obtain ⟨r, hr, rfl⟩ := List.mem_map.mp mem
  exact le_maxPort hr

theorem maxPort_usable {w : World} (numbered : WellNumbered w) :
    maxPort w.db = 0 ∨ Usable (maxPort w.db) := by
  rcases maxPort_cases w.db with zero | ⟨r, hr, eq⟩
  · exact .inl zero
  · rw [← eq]
    exact .inr (numbered _ (List.mem_map_of_mem hr))

theorem returns_probe (fails : Nat → Bool) (is : List Nat) (next : Nat) :
    (probe fails is next).Returns (fun p => p ∈ is ∨ p = next) := by
  induction is with
  | nil => exact Prog.returns_pure (.inr rfl)
  | cons i rest ih =>
    refine Prog.returns_bind (Prog.returns_any _) (fun used _ => ?_)
    cases used with
    | true =>
      refine ih.mono (fun p hp => ?_)
      rcases hp with hp | hp
      · exact .inl (List.mem_cons_of_mem i hp)
      · exact .inr hp
    | false => exact Prog.returns_pure (.inl List.mem_cons_self)

/-- Below 100, whatever fails, the number is one of the 49. -/
theorem nextPort_usable {w w' : World} (numbered : WellNumbered w) {c : PortCalls} {p : Nat}
    (run : (nextPort c).run w = (.ok p, w')) (bounded : p < 100) : Usable p := by
  rw [nextPort, Prog.run_bind, run_query rfl] at run
  cases hmax : c.max with
  | true =>
    rw [hmax] at run
    cases run
  | false =>
    rw [hmax] at run
    simp only [Bool.false_eq_true, if_false] at run
    have highest := maxPort_usable numbered
    split at run
    · rename_i wrapped
      rcases (returns_probe _ _ _).run (congrArg Prod.fst run) with found | same
      · exact mem_candidates.mp found
      · omega
    · rename_i below
      cases run
      rcases highest with zero | ⟨even, low, high⟩
      · rw [zero]
        decide
      · exact ⟨by omega, by omega, by omega⟩

theorem run_probe (is : List Nat) (next : Nat) (w : World) :
    (probe (fun _ => false) is next).run w =
      (.ok ((is.find? (fun i => decide (i ∉ taken w))).getD next), w) := by
  induction is with
  | nil => rfl
  | cons i rest ih =>
    rw [probe, Prog.run_bind, run_query rfl, any_portnum]
    by_cases used : i ∈ taken w
    · rw [List.find?_cons_of_neg (by simpa using used)]
      simpa [used] using ih
    · rw [List.find?_cons_of_pos (by simpa using used)]
      simp [used]

/-- What is tried when nothing fails. -/
def next (w : World) : Nat :=
  if 100 ≤ maxPort w.db + 2 then
    (candidates.find? (fun i => decide (i ∉ taken w))).getD (maxPort w.db + 2)
  else maxPort w.db + 2

theorem run_nextPort (s : ProconsulSession) (w : World) :
    (nextPort (storing s)).run w = (.ok (next w), w) := by
  rw [nextPort, Prog.run_bind, run_query rfl, next]
  simp only [storing, Bool.false_eq_true, if_false]
  split
  · exact run_probe _ _ w
  · rfl

theorem next_free {w : World} (numbered : WellNumbered w) {p : Nat} (usable : Usable p)
    (free : p ∉ taken w) : Usable (next w) ∧ next w ∉ taken w := by
  rw [next]
  split
  · have found : (candidates.find? (fun i => decide (i ∉ taken w))).isSome := by
      rw [List.find?_isSome]
      exact ⟨p, mem_candidates.mpr usable, by simpa using free⟩
    obtain ⟨q, hq⟩ := Option.isSome_iff_exists.mp found
    rw [hq]
    constructor
    · exact mem_candidates.mp (List.mem_of_find?_eq_some hq)
    · simpa using List.find?_some hq
  · rename_i below
    constructor
    · rcases maxPort_usable numbered with zero | ⟨even, low, high⟩
      · rw [zero]
        decide
      · exact ⟨by omega, by omega, by omega⟩
    · intro used
      have := taken_le used
      omega

theorem next_full {w : World} (full : ∀ p, Usable p → p ∈ taken w) : 100 ≤ next w := by
  have last : 98 ≤ maxPort w.db := taken_le (full 98 (by decide))
  have none : candidates.find? (fun i => decide (i ∉ taken w)) = none := by
    rw [List.find?_eq_none]
    intro i hi
    simpa using full i (mem_candidates.mp hi)
  rw [next, none, if_pos (by omega)]
  simp only [Option.getD_none]
  omega

/-! ## One allocation -/

/-- With a number free, all that matters is whether the row can be stored. -/
theorem allocate_free {w : World} (numbered : WellNumbered w) (s : ProconsulSession)
    (free : ∃ p, Usable p ∧ p ∉ taken w) :
    ∃ p, Usable p ∧ p ∉ taken w ∧ (getVncPortNumber (storing s) s).run w =
      if fits s then (.ok p, reserve (portRow p s) w) else (.error .sqlException, w) := by
  obtain ⟨q, usable, absent⟩ := free
  obtain ⟨found, unused⟩ := next_free numbered usable absent
  refine ⟨next w, found, unused, ?_⟩
  have bounded : ¬ 100 ≤ next w := by
    have := found.2.2
    omega
  rw [getVncPortNumber, Prog.run_bind_ok (run_nextPort s w), if_neg bounded, Prog.run_bind, insertPort,
    Prog.run_atom, any_portnum]
  cases stored : fits s <;> simp [storing, stored, unused, portRow]

theorem allocate_full {w : World} (s : ProconsulSession) (full : ∀ p, Usable p → p ∈ taken w) :
    (getVncPortNumber (storing s) s).run w = (.error (.runtimeException "Port exhaustion"), w) := by
  rw [getVncPortNumber, Prog.run_bind_ok (run_nextPort s w), if_pos (next_full full)]
  rfl

/-- Whatever fails, a number that is handed out was free and is now taken. -/
theorem allocated {w w' : World} (numbered : WellNumbered w) {c : PortCalls} {s : ProconsulSession}
    {p : Nat} (run : (getVncPortNumber c s).run w = (.ok p, w')) :
    Usable p ∧ p ∉ taken w ∧ w' = reserve (portRow p s) w := by
  have same := Prog.run_unchanged (reads_nextPort c) w
  rw [getVncPortNumber, Prog.run_bind] at run
  rcases hnext : (nextPort c).run w with ⟨e | q, w₁⟩
  · rw [hnext] at run
    cases run
  · rw [hnext] at run same
    obtain rfl : w₁ = w := same
    dsimp only at run
    split at run
    · cases run
    · rename_i bounded
      rw [Prog.run_bind, insertPort, Prog.run_atom, any_portnum] at run
      split at run
      · rename_i q' w₂ inserted
        split at inserted
        · cases inserted
        · rename_i free
          cases inserted
          cases run
          refine ⟨nextPort_usable numbered hnext (by omega), ?_, rfl⟩
          simp only [Bool.or_eq_true, decide_eq_true_eq, not_or] at free
          exact free.2
      · cases run

/-! ## Histories -/

structure DeletePortCalls where
  connect : Bool
  delete : Bool

/-- A failing connection raises; a failing statement is ignored. -/
def deletePortFromDB (c : DeletePortCalls) (portnum : Nat) : Run Unit :=
  if c.connect then Prog.throwing (.runtimeException
    ("Failed database connection deleting port number " ++ toString portnum))
  else Prog.orElse (execute c.delete .ports ["portnum"] (fun db =>
    ({ db with ports := deleteWhere (fun r => r.portnum == portnum) db.ports }, []))) ()

/-- A call of the allocator, a call of `deletePortFromDB`, or the delete of a cleanup script. -/
inductive PortOp where
  | allocate (c : PortCalls) (s : ProconsulSession)
  | delete (c : DeletePortCalls) (portnum : Nat)
  | script (c : Container)

/-- The number that is handed out, if any. -/
def PortOp.handed : PortOp → World → Option Nat
  | .allocate c s, w => ((getVncPortNumber c s).run w).1.toOption
  | _, _ => none

def PortOp.after : PortOp → World → World
  | .allocate c s, w => ((getVncPortNumber c s).run w).2
  | .delete c portnum, w => ((deletePortFromDB c portnum).run w).2
  | .script c, w => deletePort c w

def afterAll (ops : List PortOp) (w : World) : World := ops.foldl (fun w op => op.after w) w

def PortOp.Frees (p : Nat) : PortOp → Prop
  | .allocate _ _ => False
  | .delete c portnum => c.connect = false ∧ c.delete = false ∧ portnum = p
  | .script c => c.display = p

theorem afterAll_append (ops ops' : List PortOp) (w : World) :
    afterAll (ops ++ ops') w = afterAll ops' (afterAll ops w) := List.foldl_append

theorem taken_reserve (row : PortRow) (w : World) :
    taken (reserve row w) = taken w ++ [row.portnum] := List.map_append

theorem handed_allocate {w : World} {c : PortCalls} {s : ProconsulSession} {p : Nat}
    (handed : (PortOp.allocate c s).handed w = some p) :
    (getVncPortNumber c s).run w = (.ok p, ((getVncPortNumber c s).run w).2) := by
  rw [PortOp.handed] at handed
  rcases hrun : (getVncPortNumber c s).run w with ⟨e | q, w'⟩
  · rw [hrun] at handed
    cases handed
  · rw [hrun] at handed
    cases handed
    rfl

theorem taken_allocate {w : World} (numbered : WellNumbered w) (c : PortCalls)
    (s : ProconsulSession) : taken ((PortOp.allocate c s).after w) = taken w ∨
      ∃ p, Usable p ∧ taken ((PortOp.allocate c s).after w) = taken w ++ [p] := by
  rcases run_getVncPortNumber c s w with ⟨-, e, hrun⟩ | ⟨-, row, hrun⟩
  · left
    rw [PortOp.after, hrun]
  · right
    refine ⟨row.portnum, (allocated numbered hrun).1, ?_⟩
    rw [PortOp.after, hrun, taken_reserve]

theorem taken_deleteWhere (w : World) (p : Nat) :
    (deleteWhere (fun r : PortRow => r.portnum == p) w.db.ports).map PortRow.portnum =
      (taken w).filter (fun q => !(q == p)) := by
  rw [deleteWhere, taken, List.filter_map]
  rfl

theorem taken_delete (c : DeletePortCalls) (p : Nat) (w : World) :
    taken ((PortOp.delete c p).after w) =
      if c.connect = false ∧ c.delete = false then (taken w).filter (fun q => !(q == p))
      else taken w := by
  rw [PortOp.after, deletePortFromDB]
  cases hc : c.connect with
  | true => simp
  | false =>
    simp only [Bool.false_eq_true, if_false, true_and]
    rw [Prog.run_orElse_state, run_execute rfl]
    cases hd : c.delete with
    | true => simp
    | false =>
      simp only [Bool.false_eq_true, if_false, if_true]
      exact taken_deleteWhere w p

theorem taken_script (c : Container) (w : World) :
    taken ((PortOp.script c).after w) = (taken w).filter (fun q => !(q == c.display)) :=
  taken_deleteWhere w c.display

/-- One operation keeps the numbers usable. -/
theorem wellNumbered_after {w : World} (numbered : WellNumbered w) (op : PortOp) :
    WellNumbered (op.after w) := by
  intro q hq
  cases op with
  | allocate c s =>
    rcases taken_allocate numbered c s with same | ⟨p, usable, one⟩
    · rw [same] at hq
      exact numbered q hq
    · rw [one, List.mem_append] at hq
      rcases hq with hq | hq
      · exact numbered q hq
      · rw [List.mem_singleton.mp hq]
        exact usable
  | delete c p =>
    rw [taken_delete] at hq
    split at hq
    · exact numbered q (List.mem_filter.mp hq).1
    · exact numbered q hq
  | script c =>
    rw [taken_script] at hq
    exact numbered q (List.mem_filter.mp hq).1

/-- Only an operation that frees it takes a number out of the table. -/
theorem taken_after {w : World} (numbered : WellNumbered w) {p : Nat} (used : p ∈ taken w)
    {op : PortOp} (kept : ¬ op.Frees p) : p ∈ taken (op.after w) := by
  cases op with
  | allocate c s =>
    rcases taken_allocate numbered c s with same | ⟨q, -, one⟩
    · rw [same]
      exact used
    · rw [one]
      exact List.mem_append_left _ used
  | delete c q =>
    rw [taken_delete]
    split
    · rename_i done
      refine List.mem_filter.mpr ⟨used, ?_⟩
      by_cases same : p = q
      · exact absurd ⟨done.1, done.2, same.symm⟩ kept
      · simpa using same
    · exact used
  | script c =>
    rw [taken_script]
    refine List.mem_filter.mpr ⟨used, ?_⟩
    by_cases same : p = c.display
    · exact absurd same.symm kept
    · simpa using same

theorem wellNumbered_afterAll {w : World} (numbered : WellNumbered w) (ops : List PortOp) :
    WellNumbered (afterAll ops w) := by
  induction ops generalizing w with
  | nil => exact numbered
  | cons op ops ih => exact ih (wellNumbered_after numbered op)

theorem taken_afterAll {w : World} (numbered : WellNumbered w) {p : Nat} (used : p ∈ taken w)
    {ops : List PortOp} (kept : ∀ op ∈ ops, ¬ op.Frees p) : p ∈ taken (afterAll ops w) := by
  induction ops generalizing w with
  | nil => exact used
  | cons op ops ih =>
    have first : p ∈ taken (op.after w) := taken_after numbered used (kept op List.mem_cons_self)
    exact ih (wellNumbered_after numbered op) first
      (fun op' hop' => kept op' (List.mem_cons_of_mem op hop'))

/-- A number that is handed out was not in the table, and is afterwards. -/
theorem handed_free {w : World} (numbered : WellNumbered w) {op : PortOp} {p : Nat}
    (handed : op.handed w = some p) : Usable p ∧ p ∉ taken w ∧ p ∈ taken (op.after w) := by
  cases op with
  | delete c q => cases handed
  | script c => cases handed
  | allocate c s =>
    obtain ⟨usable, free, moved⟩ := allocated numbered (handed_allocate handed)
    refine ⟨usable, free, ?_⟩
    rw [PortOp.after, moved, taken_reserve]
    exact List.mem_append_right _ (List.mem_singleton_self p)

/-- A call for the session hands out a free number as long as there is one, and raises only then,
with nothing changed. -/
structure Exact (w : World) (s : ProconsulSession) : Prop where
  hands : (∃ p, Usable p ∧ p ∉ taken w) → ∃ p, Usable p ∧ p ∉ taken w ∧
    (getVncPortNumber (storing s) s).run w = (.ok p, reserve (portRow p s) w)
  throws : (∃ e, ((getVncPortNumber (storing s) s).run w).1 = .error e) ↔ ∀ p, Usable p → p ∈ taken w
  unchanged : ∀ e, ((getVncPortNumber (storing s) s).run w).1 = .error e →
    ((getVncPortNumber (storing s) s).run w).2 = w

theorem exact_iff {w : World} (numbered : WellNumbered w) (s : ProconsulSession) :
    Exact w s ↔ fits s = true ∨ ∀ p, Usable p → p ∈ taken w := by
  by_cases full : ∀ p, Usable p → p ∈ taken w
  · refine iff_of_true ⟨?_, ?_, ?_⟩ (.inr full)
    · rintro ⟨p, usable, free⟩
      exact absurd (full p usable) free
    · rw [allocate_full s full]
      exact iff_of_true ⟨_, rfl⟩ full
    · rw [allocate_full s full]
      exact fun _ _ => rfl
  · have free : ∃ p, Usable p ∧ p ∉ taken w := by
      push Not at full
      exact full
    obtain ⟨p, usable, absent, run⟩ := allocate_free numbered s free
    cases stored : fits s with
    | true =>
      rw [stored, if_pos rfl] at run
      refine iff_of_true ⟨fun _ => ⟨p, usable, absent, run⟩, ?_, ?_⟩ (.inl rfl)
      · rw [run]
        exact iff_of_false (by simp) full
      · rw [run]
        simp
    | false =>
      rw [stored, if_neg Bool.false_ne_true] at run
      refine iff_of_false (fun exact => full (exact.throws.mp ⟨.sqlException, ?_⟩)) (by simp [full])
      rw [run]

/-- The allocator is exact for the sessions whose values fit into the table, and for all sessions
once no number is left. Along any history no number is handed out twice without its having been
freed in between. -/
theorem port_allocator_exact_iff (w : World) (numbered : WellNumbered w) :
    (∀ s, Exact w s ↔ fits s = true ∨ ∀ p, Usable p → p ∈ taken w) ∧
    ∀ (before : List PortOp) (op : PortOp) (p : Nat), op.handed (afterAll before w) = some p →
      (5902 ≤ 5900 + p ∧ 5901 + p ≤ 5999) ∧
      ∀ (between : List PortOp) (op' : PortOp),
        op'.handed (afterAll (before ++ op :: between) w) = some p →
        ∃ freeing ∈ between, freeing.Frees p := by
  refine ⟨exact_iff numbered, ?_⟩
  intro before op p handed
  have numbered₁ := wellNumbered_afterAll numbered before
  obtain ⟨⟨-, low, high⟩, -, used⟩ := handed_free numbered₁ handed
  refine ⟨⟨by omega, by omega⟩, ?_⟩
  intro between op' again
  by_contra never
  have kept : ∀ freeing ∈ between, ¬ freeing.Frees p := by
    intro freeing mem frees
    exact never ⟨freeing, mem, frees⟩
  rw [afterAll_append] at again
  have numbered₂ := wellNumbered_after numbered₁ op
  have still : p ∈ taken (afterAll (op :: between) (afterAll before w)) :=
    taken_afterAll numbered₂ used kept
  have numbered₃ := wellNumbered_afterAll numbered₁ (op :: between)
  exact (handed_free numbered₃ again).2.1 still

/-- The highest number is taken, the others are not. -/
def wrappedSite : World :=
  { World.empty with db := { Database.empty with ports := [⟨98, none, none, none⟩] } }

def sessionOn (fqdn : String) : ProconsulSession :=
  newSession ⟨some "pat@dom.ain", [], []⟩ (some fqdn) "vncsecret"
    ⟨some "ab3de6fgh-eas", some "secret", some "dom.ain", none, [], true⟩ "host1" "user" none none

theorem wrapped_site_allocates :
    WellNumbered wrappedSite ∧ Exact wrappedSite (sessionOn "host1.dom.ain") :=
  ⟨by decide, ((port_allocator_exact_iff wrappedSite (by decide)).1 _).mpr (.inl (by decide +kernel))⟩

/-- A host name of 89 characters, which `explicit_hosts` takes. -/
def longHost : String :=
  String.ofList (List.replicate 40 'a' ++ '.' :: List.replicate 40 'b' ++ ".dom.ain".toList)

/-- No number is in use, and the call raises. -/
theorem long_host_refused : longHost.length = 89 ∧ ¬ Exact World.empty (sessionOn longHost) := by
  refine ⟨by decide +kernel, fun exact => ?_⟩
  obtain ⟨p, -, -, run⟩ := exact.hands ⟨2, by decide, by decide⟩
  have raised : ((getVncPortNumber (storing (sessionOn longHost)) (sessionOn longHost)).run
      World.empty).1 = .error .sqlException := by decide +kernel
  rw [run] at raised
  cases raised

end PortAllocator
