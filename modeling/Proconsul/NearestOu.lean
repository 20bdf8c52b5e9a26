import Proconsul.Delegation

/-!
# The nearest OU with a managing group

`groupDnForFQDN` removes one component after the other from the DN of a host's
computer object and asks `ou_group` for what is left, as long as there is a
comma in it. Here the walk is read on the list of components: it answers with
the longest proper suffix, of two components or more, that the table maps.

`ou` is the primary key of `ou_group`, and the table is asked in the collation of
that column, which ignores case, most accents and trailing blanks. No lookup fails.
Nothing is said about escaped commas: a component has none.
-/

namespace NearestOu

open Program Schema Text Surroundings Hosts Delegation

/-! ## The table -/

/-- No two rows have the same key. -/
def PrimaryKey (ouGroup : List OuGroupRow) : Prop :=
  ouGroup.Pairwise (fun r r' => sqlEq (some r.ou) (some r'.ou) = false)

/-- The table gives the OU this group, in the collation of its column. -/
def Maps (ouGroup : List OuGroupRow) (ou g : String) : Prop :=
  ∃ r ∈ ouGroup, sqlEq (some r.ou) (some ou) = true ∧ r.groupdn = some g

theorem mappedGroup_iff {ouGroup : List OuGroupRow} (key : PrimaryKey ouGroup) (ou g : String) :
    mappedGroup ouGroup ou = some g ↔ Maps ouGroup ou g := by
  rw [mappedGroup, Option.bind_eq_some_iff]
  constructor
  · rintro ⟨r, last, group⟩
    obtain ⟨mem, same⟩ := List.mem_filter.mp (List.mem_of_getLast? last)
    exact ⟨r, mem, same, group⟩
  · rintro ⟨r, mem, same, group⟩
    have listed : r ∈ ouGroup.filter (fun r => sqlEq (some r.ou) (some ou)) :=
      List.mem_filter.mpr ⟨mem, same⟩
    have alone : ouGroup.filter (fun r => sqlEq (some r.ou) (some ou)) = [r] := by
      have distinct : (ouGroup.filter (fun r => sqlEq (some r.ou) (some ou))).Pairwise
          (fun _ _ => False) := by
        refine (key.filter _).imp_of_mem ?_
        intro a b ha hb apart
        have both := sqlEq_trans (List.mem_filter.mp ha).2 (sqlEq_symm (List.mem_filter.mp hb).2)
        rw [apart] at both
        cases both
      cases rows : ouGroup.filter (fun r => sqlEq (some r.ou) (some ou)) with
      | nil =>
        rw [rows] at listed
        cases listed
      | cons first rest =>
        rw [rows] at listed distinct
        cases rest with
        | nil => rw [List.mem_singleton.mp listed]
        | cons second rest =>
          exact False.elim ((List.pairwise_cons.mp distinct).1 second List.mem_cons_self)
    exact ⟨r, by rw [alone]; rfl, group⟩

/-! ## Names and their components -/

def dn (components : List String) : String := String.intercalate "," components

/-- No component holds a comma. -/
def Plain (components : List String) : Prop := ∀ r ∈ components, ',' ∉ r.toList

theorem toList_dn_cons (a b : String) (rest : List String) :
    (dn (a :: b :: rest)).toList = a.toList ++ ',' :: (dn (b :: rest)).toList := by
  simp [dn]

theorem comma_dn (a b : String) (rest : List String) :
    containsChar (dn (a :: b :: rest)) ',' = true := by
  rw [containsChar, toList_dn_cons]
  simp

theorem no_comma_dn {components : List String} (plain : Plain components)
    (short : components.length < 2) : containsChar (dn components) ',' = false := by
  match components, short with
  | [], _ => rfl
  | [a], _ =>
    have free : ',' ∉ a.toList := plain a List.mem_cons_self
    simpa [containsChar, dn] using free
  | a :: b :: rest, short =>
    simp only [List.length_cons] at short
    omega

theorem dropComponent_dn {a b : String} {rest : List String} (plain : Plain (a :: b :: rest)) :
    dropComponent (dn (a :: b :: rest)) = dn (b :: rest) := by
  have free : ∀ c ∈ a.toList, (c != ',') = true := by
    intro c hc
    have other : c ≠ ',' := fun h => plain a List.mem_cons_self (h ▸ hc)
    simpa using other
  rw [dropComponent, if_pos (comma_dn a b rest), toList_dn_cons,
    List.dropWhile_append_of_pos free]
  simp

/-- A name is long enough to bound the walk. -/
theorem length_le_dn (components : List String) : components.length ≤ (dn components).length + 1 := by
  induction components with
  | nil => simp
  | cons a rest ih =>
    cases rest with
    | nil => simp
    | cons b rest =>
      have longer : (dn (a :: b :: rest)).length = a.length + 1 + (dn (b :: rest)).length := by
        have comma : ",".length = 1 := rfl
        simp [dn, String.length_append, comma]
      simp only [List.length_cons] at ih ⊢
      omega

/-! ## The walk -/

/-- The group of the first suffix of two components or more that has one. -/
def nearest (ouGroup : List OuGroupRow) : List String → Option String
  | a :: b :: rest =>
    match mappedGroup ouGroup (dn (a :: b :: rest)) with
    | some g => some g
    | none => nearest ouGroup (b :: rest)
  | _ => none

theorem run_walkUp_dn {components : List String} (plain : Plain components) {steps : Nat}
    (enough : components.length ≤ steps) (i : Nat) (w : World) :
    (walkUp (fun _ => false) steps i (dn components)).run w =
      (.ok (nearest w.db.ouGroup components), w) := by
  induction components generalizing steps i with
  | nil =>
    cases steps with
    | zero => rfl
    | succ steps => rfl
  | cons a rest ih =>
    cases steps with
    | zero =>
      simp only [List.length_cons] at enough
      omega
    | succ steps =>
      rw [walkUp]
      cases rest with
      | nil =>
        rw [if_neg (by simp [no_comma_dn plain])]
        rfl
      | cons b rest =>
        have above : Plain (b :: rest) := fun r hr => plain r (List.mem_cons_of_mem a hr)
        have left : (b :: rest).length ≤ steps := by
          simp only [List.length_cons] at enough ⊢
          omega
        rw [if_pos (comma_dn a b rest), Prog.run_bind_ok (run_groupDnForOu _ _ _), nearest,
          dropComponent_dn plain]
        simp only [Bool.false_eq_true, if_false]
        cases mappedGroup w.db.ouGroup (dn (a :: b :: rest)) with
        | some g => rfl
        | none => exact ih above left (i + 1)

theorem nearest_none_iff (ouGroup : List OuGroupRow) (components : List String) :
    nearest ouGroup components = none ↔ ∀ k, k + 2 ≤ components.length →
      mappedGroup ouGroup (dn (components.drop k)) = none := by
  induction components with
  | nil => simp [nearest]
  | cons a rest ih =>
    cases rest with
    | nil => simp [nearest]
    | cons b rest =>
      rw [nearest]
      constructor
      · intro missing k inside
        cases here : mappedGroup ouGroup (dn (a :: b :: rest)) with
        | some g =>
          rw [here] at missing
          cases missing
        | none =>
          rw [here] at missing
          cases k with
          | zero => exact here
          | succ k =>
            apply ih.mp missing k
            simp only [List.length_cons] at inside ⊢
            omega
      · intro missing
        have here : mappedGroup ouGroup (dn (a :: b :: rest)) = none := by
          apply missing 0
          simp
        rw [here]
        refine ih.mpr (fun k inside => missing (k + 1) ?_)
        simp only [List.length_cons] at inside ⊢
        omega

theorem nearest_some_iff (ouGroup : List OuGroupRow) (components : List String) (g : String) :
    nearest ouGroup components = some g ↔ ∃ k, k + 2 ≤ components.length ∧
      mappedGroup ouGroup (dn (components.drop k)) = some g ∧
      ∀ j < k, mappedGroup ouGroup (dn (components.drop j)) = none := by
  induction components with
  | nil => simp [nearest]
  | cons a rest ih =>
    cases rest with
    | nil => simp [nearest]
    | cons b rest =>
      rw [nearest]
      cases here : mappedGroup ouGroup (dn (a :: b :: rest)) with
      | some g' =>
        constructor
        · rintro ⟨rfl⟩
          refine ⟨0, ?_, here, fun j hj => ?_⟩
          · simp
          · omega
        · rintro ⟨k, inside, mapped, unmapped⟩
          cases k with
          | zero => exact here.symm.trans mapped
          | succ k =>
            have none := unmapped 0 (Nat.succ_pos k)
            cases here.symm.trans none
      | none =>
        rw [ih]
        constructor
        · rintro ⟨k, inside, mapped, unmapped⟩
          refine ⟨k + 1, ?_, mapped, ?_⟩
          · simp only [List.length_cons] at inside ⊢
            omega
          · intro j hj
            cases j with
            | zero => exact here
            | succ j => exact unmapped j (by omega)
        · rintro ⟨k, inside, mapped, unmapped⟩
          cases k with
          | zero => cases here.symm.trans mapped
          | succ k =>
            refine ⟨k, ?_, mapped, fun j hj => unmapped (j + 1) (by omega)⟩
            simp only [List.length_cons] at inside ⊢
            omega

/-- The computer object that counts for a host. -/
def hostComputer (computers : List Computer) (fqdn : Option String) : Option Computer :=
  (computers.filter (fun c => c.dnsHostName.any (finds (javaString fqdn)))).getLast?

/-- From the DN of the computer the walk starts one component up, if there is one. -/
theorem run_walkUp_computer {components : List String} (plain : Plain components) {steps : Nat}
    (enough : (dropComponent (dn components)).length < steps) (w : World) :
    (walkUp (fun _ => false) steps 0 (dropComponent (dn components))).run w =
      (.ok (nearest w.db.ouGroup components.tail), w) := by
  rcases components with _ | ⟨a, _ | ⟨b, rest⟩⟩
  · have whole : dropComponent (dn []) = dn [] := rfl
    rw [whole]
    exact run_walkUp_dn plain (Nat.zero_le _) 0 w
  · have alone : dropComponent (dn [a]) = dn [a] := by
      rw [dropComponent, no_comma_dn plain (by simp), if_neg (by simp)]
    rw [alone] at enough ⊢
    have bound := length_le_dn [a]
    exact run_walkUp_dn plain (by omega) 0 w
  · have above : Plain (b :: rest) := fun r hr => plain r (List.mem_cons_of_mem a hr)
    rw [dropComponent_dn plain] at enough ⊢
    have bound := length_le_dn (b :: rest)
    exact run_walkUp_dn above (by omega) 0 w

/-- The walk ends, and answers with the group of the longest suffix of the DN, between the whole and
the last component, that the table maps; it answers null if there is none. -/
theorem nearest_managing_ou (w : World) (fqdn : Option String) (computer : Computer)
    (components : List String) (key : PrimaryKey w.db.ouGroup) (plain : Plain components)
    (found : hostComputer w.ad.computers fqdn = some computer) (named : computer.dn = dn components) :
    ∃ r, (groupDnForFQDN false (fun _ => false) fqdn).run w = (.ok r, w) ∧
      (∀ passes, (dropComponent computer.dn).length < passes →
        (walkUp (fun _ => false) passes 0 (dropComponent computer.dn)).run w = (.ok r, w)) ∧
      (∀ g, r = some g ↔ ∃ k, 1 ≤ k ∧ k + 2 ≤ components.length ∧
        Maps w.db.ouGroup (dn (components.drop k)) g ∧
        ∀ j, 1 ≤ j → j < k → ∀ g', ¬ Maps w.db.ouGroup (dn (components.drop j)) g') ∧
      (r = none ↔ ∀ k, 1 ≤ k → k + 2 ≤ components.length →
        ∀ g, ¬ Maps w.db.ouGroup (dn (components.drop k)) g) := by
  have unmapped : ∀ ou, mappedGroup w.db.ouGroup ou = none ↔ ∀ g, ¬ Maps w.db.ouGroup ou g := by
    intro ou
    rw [Option.eq_none_iff_forall_ne_some]
    exact forall_congr' (fun g => not_congr (mappedGroup_iff key ou g))
  have start : hostOu w.ad.computers fqdn = some (dropComponent computer.dn) := by
    rw [hostComputer] at found
    rw [hostOu, found]
    rfl
  have walk : ∀ passes, (dropComponent computer.dn).length < passes →
      (walkUp (fun _ => false) passes 0 (dropComponent computer.dn)).run w =
        (.ok (nearest w.db.ouGroup components.tail), w) := by
    rw [named]
    exact fun passes enough => run_walkUp_computer plain enough w
  refine ⟨nearest w.db.ouGroup components.tail, ?_, walk, ?_, ?_⟩
  · rw [groupDnForFQDN, Prog.run_bind_ok (run_ouForFqdn _ _ _), start]
    exact walk _ (Nat.lt_succ_self _)
  · intro g
    rw [nearest_some_iff]
    constructor
    · rintro ⟨k, inside, mapped, below⟩
      rw [List.drop_tail, mappedGroup_iff key] at mapped
      refine ⟨k + 1, by omega, ?_, mapped, ?_⟩
      · rw [List.length_tail] at inside
        omega
      · intro j positive before
        obtain ⟨j, rfl⟩ : ∃ j', j = j' + 1 := ⟨j - 1, by omega⟩
        have none := below j (by omega)
        rw [List.drop_tail] at none
        exact (unmapped _).mp none
    · rintro ⟨k, positive, inside, mapped, below⟩
      obtain ⟨k, rfl⟩ : ∃ k', k = k' + 1 := ⟨k - 1, by omega⟩
      refine ⟨k, ?_, ?_, ?_⟩
      · rw [List.length_tail]
        omega
      · rw [List.drop_tail, mappedGroup_iff key]
        exact mapped
      · intro j before
        rw [List.drop_tail, unmapped]
        exact below (j + 1) (by omega) (by omega)
  · rw [nearest_none_iff]
    constructor
    · intro missing k positive inside
      obtain ⟨k, rfl⟩ : ∃ k', k = k' + 1 := ⟨k - 1, by omega⟩
      have none := missing k (by rw [List.length_tail]; omega)
      rw [List.drop_tail] at none
      exact (unmapped _).mp none
    · intro missing k inside
      rw [List.length_tail] at inside
      rw [List.drop_tail, unmapped]
      exact missing (k + 1) (by omega) (by omega)

/-- Two levels of the tree above the lab are mapped, in other letters than the DN has. -/
def physSite : World :=
  { World.empty with
    db := { Database.empty with ouGroup := [⟨"DC=dom,DC=ain", some "cn=all,dc=dom,dc=ain"⟩,
      ⟨"OU=Phys,DC=dom,DC=ain", some "cn=phys,dc=dom,dc=ain"⟩, ⟨"ou=labs", some "cn=none"⟩] }
    ad := ⟨[], [], [⟨"LAB1", "cn=LAB1,ou=labs,ou=phys,dc=dom,dc=ain", some "lab1.dom.ain"⟩]⟩ }

def labComponents : List String := ["cn=LAB1", "ou=labs", "ou=phys", "dc=dom", "dc=ain"]

theorem lab_managed_by_phys :
    ((groupDnForFQDN false (fun _ => false) (some "lab1.dom.ain")).run physSite).1 =
      .ok (some "cn=phys,dc=dom,dc=ain") := by
  obtain ⟨r, hrun, -, answer, -⟩ := nearest_managing_ou physSite (some "lab1.dom.ain")
    ⟨"LAB1", "cn=LAB1,ou=labs,ou=phys,dc=dom,dc=ain", some "lab1.dom.ain"⟩ labComponents
    (by unfold PrimaryKey; decide +kernel) (by unfold Plain; decide +kernel) (by decide +kernel)
    (by decide +kernel)
  have unmapped : ∀ r ∈ physSite.db.ouGroup,
      sqlEq (some r.ou) (some (dn (labComponents.drop 1))) = false := by decide +kernel
  have nearest_phys : r = some "cn=phys,dc=dom,dc=ain" := by
    refine (answer _).mpr ⟨2, by decide, by decide, ?_, ?_⟩
    · refine ⟨⟨"OU=Phys,DC=dom,DC=ain", some "cn=phys,dc=dom,dc=ain"⟩, ?_, ?_, rfl⟩
      · decide +kernel
      · decide +kernel
    · rintro j positive before g ⟨row, mem, same, -⟩
      obtain rfl : j = 1 := by omega
      rw [unmapped row mem] at same
      cases same
  rw [hrun, nearest_phys]

/-- The table gives the group to an OU whose name differs in case alone. -/
def MapsFolded (ouGroup : List OuGroupRow) (ou g : String) : Prop :=
  ∃ r ∈ ouGroup, nameEq r.ou ou = true ∧ r.groupdn = some g

/-- One OU is mapped, and the name of another is the same but for an accent. -/
def editionSite : World :=
  { World.empty with
    db := { Database.empty with
      ouGroup := [⟨"OU=Édition,DC=dom,DC=ain", some "cn=edition,dc=dom,dc=ain"⟩] }
    ad := ⟨[], [], [⟨"LAB1", "cn=LAB1,ou=edition,dc=dom,dc=ain", some "lab1.dom.ain"⟩]⟩ }

def editionComponents : List String := ["cn=LAB1", "ou=edition", "dc=dom", "dc=ain"]

/-- The host of the other OU gets the group, although no OU above it is mapped up to case. -/
theorem accented_ou_answers :
    hostComputer editionSite.ad.computers (some "lab1.dom.ain") =
        some ⟨"LAB1", dn editionComponents, some "lab1.dom.ain"⟩ ∧
      ((groupDnForFQDN false (fun _ => false) (some "lab1.dom.ain")).run editionSite).1 =
        .ok (some "cn=edition,dc=dom,dc=ain") ∧
      ∀ k, ∀ g, ¬ MapsFolded editionSite.db.ouGroup (dn (editionComponents.drop k)) g := by
  refine ⟨by decide +kernel, by decide +kernel, ?_⟩
  rintro k g ⟨r, mem, same, -⟩
  obtain rfl := List.mem_singleton.mp mem
  have other : ∀ n < 5, nameEq "OU=Édition,DC=dom,DC=ain" (dn (editionComponents.drop n)) = false := by
    decide +kernel
  by_cases inside : k < 5
  · rw [other k inside] at same
    cases same
  · have beyond : editionComponents.drop k = editionComponents.drop 4 := by
      rw [List.drop_of_length_le (by simp [editionComponents]; omega),
        List.drop_of_length_le (by simp [editionComponents])]
    rw [beyond, other 4 (by decide)] at same
    cases same

end NearestOu
