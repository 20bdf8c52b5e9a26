import Proconsul.HostRestriction

/-!
# The list in userWorkstations

`userWorkstations` holds one value that is a comma-separated list. Each host of
a request reads the value, appends a name to it and writes it back, as an
addition while the text has no comma and as a replacement from then on. Here
the loop over the hosts is compared with the plain comma-join, from any value
the attribute may start with.

All directory calls succeed. A directory entry has a name, no two computers
share a host name, and an attribute that is present has a value that is not
empty; the length limit of the attribute is not considered.
-/

namespace WorkstationList

open Program Schema Text Surroundings Hosts Accounts HostRestriction

/-! ## What the request asks for -/

def bears (host : String) (m : Computer) : Bool := m.dnsHostName.any (fun h => nameEq h host)

structure Lawful (computers : List Computer) : Prop where
  unique : ∀ m ∈ computers, ∀ m' ∈ computers, ∀ host, bears host m = true → bears host m' = true →
    m = m'
  named : ∀ m ∈ computers, m.cn ≠ ""

/-- The name of the computer meant by one part of the request. -/
def partName (computers : List Computer) (part : String) : Option String :=
  if legal (keepOnly (· != ' ') part) then
    (computers.find? (bears (keepOnly (· != ' ') part))).map Computer.cn
  else none

def partNames (computers : List Computer) (s : String) : List String :=
  (javaSplit ',' s).filterMap (partName computers)

/-- The value with the names appended, separated by commas. -/
def accumulated (value : Option String) (names : List String) : Option String :=
  if names = [] then value else some (String.intercalate "," ((given value).toList ++ names))

variable {computers : List Computer}

theorem find_bears (lawful : Lawful computers) (host : String) :
    computers.find? (bears host) = foundComputer computers host := by
  rw [foundComputer]
  change _ = (computers.filter (bears host)).getLast?
  cases last : (computers.filter (bears host)).getLast? with
  | none =>
    rw [List.getLast?_eq_none_iff, List.filter_eq_nil_iff] at last
    exact List.find?_eq_none.mpr last
  | some m =>
    obtain ⟨hm, bearsHost⟩ := List.mem_filter.mp (List.mem_of_getLast? last)
    cases first : computers.find? (bears host) with
    | none => exact absurd bearsHost (List.find?_eq_none.mp first m hm)
    | some m' =>
      have same := lawful.unique m' (List.mem_of_find?_eq_some first) m hm host
        (List.find?_some first) bearsHost
      rw [same]

theorem partName_eq (lawful : Lawful computers) (part : String) :
    partName computers part = foundName computers (keepOnly (· != ' ') part) := by
  rw [partName, foundName, find_bears lawful]
  split
  · cases found : foundComputer computers (keepOnly (· != ' ') part) with
    | none => rfl
    | some m =>
      have mem : m ∈ computers := (List.mem_filter.mp (List.mem_of_getLast? found)).1
      exact (given_some (lawful.named m mem)).symm
  · rfl

theorem partNames_eq (lawful : Lawful computers) (s : String) :
    partNames computers s = foundNames computers s := by
  rw [partNames, foundNames, requestedHosts, List.filterMap_map]
  exact List.filterMap_congr (fun part _ => partName_eq lawful part)

/-! ## The loop on the value alone -/

/-- One more name, as the directory stores it. -/
def put (value : Option String) (name : String) : Option String := taken value (extended value name)

theorem foldl_stored (hosts : List String) (value : Option String) :
    hosts.foldl (stored computers) value =
      (hosts.filterMap (foundName computers)).foldl put value := by
  induction hosts generalizing value with
  | nil => rfl
  | cons host hosts ih =>
    rw [List.foldl_cons, ih, List.filterMap_cons, stored]
    cases foundName computers host with
    | none => rfl
    | some name => rfl

theorem put_none (name : String) : put none name = some name := rfl

theorem put_shown {pre : String} (shown : pre ≠ "") (name : String) :
    put (some pre) name = some (pre ++ "," ++ name) := by
  have comma : containsChar (pre ++ "," ++ name) ',' = true := by simp [containsChar]
  simp [put, extended, given_some shown, taken, comma]

theorem accumulated_some {pre : String} (shown : pre ≠ "") (names : List String) :
    accumulated (some pre) names = some (String.intercalate "," (pre :: names)) := by
  rw [accumulated, given_some shown]
  split
  · rename_i none
    simp [none]
  · rfl

theorem append_comma_ne_empty (pre name : String) : pre ++ "," ++ name ≠ "" := by
  intro empty
  have length := congrArg String.length empty
  simp only [String.length_append] at length
  have comma : ",".length = 1 := rfl
  have none : "".length = 0 := rfl
  omega

theorem foldl_put_shown (names : List String) {pre : String} (shown : pre ≠ "") :
    names.foldl put (some pre) = accumulated (some pre) names := by
  induction names generalizing pre with
  | nil => rfl
  | cons name names ih =>
    rw [List.foldl_cons, put_shown shown, ih (append_comma_ne_empty pre name),
      accumulated_some (append_comma_ne_empty pre name), accumulated_some shown,
      String.intercalate_cons_append, String.intercalate_cons_cons]

/-- From any other value than an empty one the loop appends. -/
theorem foldl_put {value : Option String} (visible : value ≠ some "") {names : List String}
    (named : ∀ n ∈ names, n ≠ "") : names.foldl put value = accumulated value names := by
  cases value with
  | some pre => exact foldl_put_shown names (fun empty => visible (congrArg some empty))
  | none =>
    cases names with
    | nil => rfl
    | cons name names =>
      have shown := named name List.mem_cons_self
      rw [List.foldl_cons, put_none, foldl_put_shown names shown, accumulated_some shown]
      rfl

/-! ## The loop of the request -/

/-- The attribute ends as the comma-join of what it held and the names asked for. A string value of
the directory is never empty: an account without workstations has no such attribute. -/
theorem workstations_accumulate (cfg : Config) {c : Nat → WorkstationCalls}
    (succeed : ∀ i, WorkstationCalls.Succeed (c i)) (u : ADUser) (au : Option AuthUser)
    (clientip : Option String) (s userDn : String) (value : Option String) (w : World)
    (lawful : Lawful computers) (visible : value ≠ some "")
    (h : Restricted u.sAMAccountName userDn value computers w) :
    ∃ w', ((javaSplit ',' s).zipIdx.foldlM (fun u host =>
        addWorkstationToADUser cfg (c host.2) host.1 u au clientip) u).run w = (.ok u, w') ∧
      workstations userDn w'.ad = accumulated value (partNames computers s) := by
  obtain ⟨w', hrun, limited⟩ := run_addWorkstations succeed cfg u au clientip
    (javaSplit ',' s).zipIdx h
  have named : ∀ n ∈ foundNames computers s, n ≠ "" := by
    intro n hn
    obtain ⟨host, -, found⟩ := List.mem_filterMap.mp hn
    exact (foundName_spec found).1
  refine ⟨w', hrun, ?_⟩
  rw [limited.workstations, parts_eq_requestedHosts, foldl_stored, ← foundNames, partNames_eq lawful]
  exact foldl_put visible named

def labComputers : List Computer :=
  [⟨"LAB1", "cn=LAB1,ou=labs,dc=dom", some "lab1.dom.ain"⟩,
    ⟨"LAB2", "cn=LAB2,ou=labs,dc=dom", some "lab2.dom.ain"⟩]

/-- Two computers and an account whose attribute has that value. -/
def labWith (value : Option String) : World :=
  { World.empty with ad := {
      accounts := [⟨"pc0001", "cn=pc0001,ou=proconsul,dc=dom,dc=ain", none, 512, [], value, none⟩]
      groups := []
      computers := labComputers } }

def labUser : ADUser where
  sAMAccountName := some "pc0001"
  adPassword := none
  adDomain := some "dom.ain"
  adOu := none
  memberships := []
  created := true

theorem labComputers_lawful : Lawful labComputers := by
  refine ⟨?_, by decide +kernel⟩
  have apart : ∀ host, ¬ (bears host ⟨"LAB1", "cn=LAB1,ou=labs,dc=dom", some "lab1.dom.ain"⟩ = true ∧
      bears host ⟨"LAB2", "cn=LAB2,ou=labs,dc=dom", some "lab2.dom.ain"⟩ = true) := by
    rintro host ⟨first, second⟩
    have same : nameEq "lab1.dom.ain" "lab2.dom.ain" = true := nameEq_trans first (nameEq_symm second)
    revert same
    decide +kernel
  intro m hm m' hm' host first second
  simp only [labComputers, List.mem_cons, List.not_mem_nil, or_false] at hm hm'
  rcases hm with rfl | rfl <;> rcases hm' with rfl | rfl
  · rfl
  · exact absurd ⟨first, second⟩ (apart host)
  · exact absurd ⟨second, first⟩ (apart host)
  · rfl

theorem labWith_restricted (value : Option String) :
    Restricted labUser.sAMAccountName "cn=pc0001,ou=proconsul,dc=dom,dc=ain" value labComputers
      (labWith value) where
  found := by
    have named : nameEq "pc0001" (javaString labUser.sAMAccountName) = true := by decide +kernel
    simp [accountDns, found, labWith, named]
  entries := by simp [labWith]
  computers := rfl

/-- The run of the loop over a request for both computers and one that is not there. -/
def afterLabs (value : Option String) : Except Exn ADUser × World :=
  ((javaSplit ',' "lab1.dom.ain, gone.dom.ain,lab2.dom.ain").zipIdx.foldlM (fun u host =>
    addWorkstationToADUser sampleConfig .noOutage host.1 u none none) labUser).run (labWith value)

theorem lab_list_extended :
    workstations "cn=pc0001,ou=proconsul,dc=dom,dc=ain" (afterLabs (some "DESK")).2.ad =
      some "DESK,LAB1,LAB2" := by
  obtain ⟨w', hrun, exact⟩ := workstations_accumulate sampleConfig (c := fun _ => .noOutage)
    (fun _ => ⟨rfl, rfl, rfl, fun _ => rfl⟩) labUser none none
    "lab1.dom.ain, gone.dom.ain,lab2.dom.ain" "cn=pc0001,ou=proconsul,dc=dom,dc=ain" (some "DESK")
    (labWith (some "DESK")) labComputers_lawful (by decide) (labWith_restricted _)
  rw [afterLabs, hrun]
  refine exact.trans ?_
  decide +kernel

end WorkstationList
