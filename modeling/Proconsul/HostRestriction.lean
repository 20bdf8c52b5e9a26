import Proconsul.CheckoutEffects

/-!
# To which hosts a checked-out credential is restricted

`handleCheckOutPost` goes through the comma-separated hosts of the request and
adds the name of each host's computer object to `userWorkstations`, a single
attribute that holds a list. A host with a character that is not allowed, or
without a computer object, is logged and left out, so that a request whose
hosts are all left out ends with an account that is restricted to nothing.

The results are about requests whose directory calls succeed. The length
limit that the directory puts on the attribute is not considered.
-/

namespace HostRestriction

open Program Schema Text Surroundings Access Hosts Accounts Sessions Handlers Checkout CheckoutEffects

/-! ## The list a request asks for -/

/-- The hosts of the request, as they are looked up. -/
def requestedHosts (targetHost : String) : List String :=
  (javaSplit ',' targetHost).map (keepOnly (· != ' '))

/-- The computer object that a search for the host yields last. -/
def foundComputer (computers : List Computer) (host : String) : Option Computer :=
  (computers.filter (fun m => m.dnsHostName.any (fun h => nameEq h host))).getLast?

/-- Not empty, and of the characters allowed. -/
def legal (host : String) : Bool := host != "" && host.toList.all workstationChar

def foundName (computers : List Computer) (host : String) : Option String :=
  if legal host then given ((foundComputer computers host).map Computer.cn) else none

/-- The names that are added for the hosts of a request, in order. -/
def foundNames (computers : List Computer) (targetHost : String) : List String :=
  (requestedHosts targetHost).filterMap (foundName computers)

/-- The list with one more name, as the code writes it. -/
def extended (current : Option String) (name : String) : String :=
  match given current with
  | none => name
  | some pre => pre ++ "," ++ name

/-- The attribute for a list of names. -/
def joined : List String → Option String
  | [] => none
  | name :: names => some (names.foldl (fun pre n => pre ++ "," ++ n) name)

variable {computers : List Computer}

theorem foundName_spec {host name : String}
    (h : foundName computers host = some name) :
    name ≠ "" ∧ ∃ m ∈ computers, m.cn = name ∧ ∃ dns, m.dnsHostName = some dns ∧
      nameEq dns host = true := by
  rw [foundName] at h
  split at h
  · obtain ⟨found, visible⟩ := Option.filter_eq_some_iff.mp h
    obtain ⟨m, last, rfl⟩ := Option.map_eq_some_iff.mp found
    obtain ⟨mem, named⟩ := List.mem_filter.mp (List.mem_of_getLast? last)
    obtain ⟨dns, hdns, same⟩ := (Option.any_eq_true _ _).mp named
    exact ⟨by simpa using visible, m, mem, rfl, dns, hdns, same⟩
  · cases h

theorem joined_append {names : List String} (visible : ∀ n ∈ names, n ≠ "") (name : String) :
    joined (names ++ [name]) = some (extended (joined names) name) := by
  cases names with
  | nil => rfl
  | cons first names =>
    have whole : names.foldl (fun pre n => pre ++ "," ++ n) first ≠ "" := by
      have grow : ∀ (ns : List String) (pre : String), pre ≠ "" →
          ns.foldl (fun pre n => pre ++ "," ++ n) pre ≠ "" := by
        intro ns
        induction ns with
        | nil => exact fun _ h => h
        | cons n ns ih =>
          intro pre h
          apply ih
          intro empty
          have length := congrArg String.length empty
          simp only [String.length_append] at length
          have comma : ",".length = 1 := rfl
          have none : "".length = 0 := rfl
          omega
      exact grow names first (visible first List.mem_cons_self)
    rw [List.cons_append, joined, joined, List.foldl_append, extended, given_some whole]
    rfl

theorem joined_ne_empty {names : List String} (visible : ∀ n ∈ names, n ≠ "") :
    joined names ≠ some "" := by
  induction names using List.reverseRecOn with
  | nil => simp [joined]
  | append_singleton names name ih =>
    have front : ∀ n ∈ names, n ≠ "" := fun n hn => visible n (List.mem_append_left _ hn)
    have last : name ≠ "" := visible name (List.mem_append_right _ (List.mem_singleton_self name))
    rw [joined_append front, extended]
    cases given (joined names) with
    | none => simpa using last
    | some pre =>
      intro empty
      have length := congrArg String.length (Option.some.inj empty)
      simp only [String.length_append] at length
      have comma : ",".length = 1 := rfl
      have none : "".length = 0 := rfl
      omega

theorem foundName_none_iff {host : String} : foundName computers host = none ↔
    (legal host = true → ∀ m, foundComputer computers host = some m → m.cn = "") := by
  rw [foundName]
  cases legal host with
  | false => simp
  | true =>
    cases foundComputer computers host with
    | none => simp [given]
    | some m => simp [given, Option.filter]

theorem joined_none_iff {hosts : String} : joined (foundNames computers hosts) = none ↔
    ∀ host ∈ requestedHosts hosts, legal host = true →
      ∀ m, foundComputer computers host = some m → m.cn = "" := by
  have empty : joined (foundNames computers hosts) = none ↔ foundNames computers hosts = [] := by
    cases foundNames computers hosts with
    | nil => simp [joined]
    | cons name names => simp [joined]
  rw [empty, foundNames, List.filterMap_eq_nil_iff]
  simp only [foundName_none_iff]

/-! ## One host -/

structure WorkstationCalls.Succeed (c : WorkstationCalls) : Prop where
  find : c.find = false
  computer : c.computer = false
  current : c.current = false
  controller : ∀ i, c.controller i = false

/-- The account is found under that DN, and that is what its attribute holds. -/
structure Restricted (sam : Option String) (userDn : String) (value : Option String)
    (computers : List Computer) (w : World) : Prop where
  found : (accountDns w.ad sam).head? = some userDn
  entries : ∀ a ∈ w.ad.accounts, dnEq a.dn userDn = true → a.userWorkstations = value
  computers : w.ad.computers = computers

variable {sam : Option String} {userDn : String} {value : Option String}

theorem Restricted.account {w : World} (h : Restricted sam userDn value computers w) :
    ∃ a ∈ w.ad.accounts, a.dn = userDn := by
  obtain ⟨p, mem, rfl⟩ := mem_names_of_head h.found
  obtain ⟨a, ha, rfl⟩ := List.mem_map.mp mem
  exact ⟨a, ha, rfl⟩

/-- The attribute as the code reads it back. -/
def workstations (userDn : String) (ad : Directory) : Option String :=
  (ad.accounts.filter (fun a => dnEq a.dn userDn)).head?.bind Account.userWorkstations

theorem Restricted.workstations {w : World} (h : Restricted sam userDn value computers w) :
    workstations userDn w.ad = value := by
  obtain ⟨a, ha, rfl⟩ := h.account
  rw [HostRestriction.workstations]
  cases first : (w.ad.accounts.filter (fun x => dnEq x.dn a.dn)).head? with
  | none =>
    have empty := List.head?_eq_none_iff.mp first
    have mem : a ∈ w.ad.accounts.filter (fun x => dnEq x.dn a.dn) :=
      List.mem_filter.mpr ⟨ha, dnEq_refl _⟩
    rw [empty] at mem
    cases mem
  | some x =>
    obtain ⟨hx, same⟩ := List.mem_filter.mp (List.mem_of_mem_head? first)
    exact h.entries x hx same

/-- The account with its new list. -/
theorem setWorkstations_eq {w : World} (h : Restricted sam userDn value computers w) {pre : String}
    (fits : value = none ∨ containsChar pre ',' = true) :
    ∃ ad, setWorkstations userDn pre w.ad = some (ad, []) ∧
      ∀ trace, Restricted sam userDn (some pre) computers { w with ad := ad, trace := trace } := by
  obtain ⟨a, ha, rfl⟩ := h.account
  have exists_account : w.ad.accounts.any (fun x => dnEq x.dn a.dn) = true :=
    List.any_eq_true.mpr ⟨a, ha, dnEq_refl _⟩
  have allowed : (containsChar pre ',' || !w.ad.accounts.any
      (fun x => dnEq x.dn a.dn && x.userWorkstations.isSome)) = true := by
    rcases fits with empty | comma
    · rw [Bool.or_eq_true, Bool.not_eq_true', List.any_eq_false]
      refine .inr (fun x hx => ?_)
      cases same : dnEq x.dn a.dn with
      | false => simp
      | true => simp [h.entries x hx same, empty]
    · simp [comma]
  let limited := updateWhere (fun x => dnEq x.dn a.dn)
    (fun x => { x with userWorkstations := some pre }) w.ad.accounts
  refine ⟨{ w.ad with accounts := limited }, ?_, ?_⟩
  · rw [setWorkstations, if_pos allowed, changeAccount, if_pos exists_account]
  · intro trace
    constructor
    · have same : names { w.ad with accounts := limited } = names w.ad :=
        names_updateWhere w.ad (fun _ => ⟨rfl, rfl⟩)
      rw [← h.found]
      exact congrArg List.head? (accountDns_of_names same sam)
    · intro x hx same
      obtain ⟨y, hy, rfl⟩ := List.mem_map.mp hx
      by_cases selected : dnEq y.dn a.dn = true
      · simp [selected]
      · simp [selected] at same
    · exact h.computers

theorem Restricted.of_ad {w w' : World} (h : Restricted sam userDn value computers w)
    (same : w'.ad = w.ad) : Restricted sam userDn value computers w' := by
  constructor
  · rw [same]
    exact h.found
  · rw [same]
    exact h.entries
  · rw [same]
    exact h.computers

theorem run_audit_ad (fails : Bool) (event : String)
    (authUser targetHost targetUser targetGroup clientIp : Option String) (w : World) :
    ∃ w', (audit fails event authUser targetHost targetUser targetGroup clientIp).run w =
      (.ok (), w') ∧ w'.ad = w.ad := by
  have logs : Logs (Keeps World.ad) := ⟨fun _ => rfl, fun _ _ => rfl⟩
  have kept := keeps_run (steps_audit logs fails event authUser targetHost targetUser targetGroup
    clientIp) w
  obtain ⟨w', hrun, -⟩ := run_audit fails event authUser targetHost targetUser targetGroup clientIp w
  rw [hrun] at kept
  exact ⟨w', hrun, kept⟩

/-- The attribute after a new list was sent: without a comma it is added, and an attribute that
has a value refuses the addition. -/
def taken (value : Option String) (pre : String) : Option String :=
  if value.isNone || containsChar pre ',' then some pre else value

theorem taken_taken (value : Option String) (pre : String) :
    taken (taken value pre) pre = taken value pre := by
  by_cases fits : (value.isNone || containsChar pre ',') = true
  · have sent : taken value pre = some pre := if_pos fits
    rw [sent, taken]
    split <;> rfl
  · have kept : taken value pre = value := if_neg fits
    rw [kept, kept]

section OneHost

variable {c : WorkstationCalls} (succeed : WorkstationCalls.Succeed c) {log : Nat → Run Unit}
variable (logs : ∀ i w, ∃ w', (log i).run w = (.ok (), w') ∧ w'.ad = w.ad)

include succeed logs

theorem run_limitOn {w : World} (h : Restricted sam userDn value computers w) (pre : String) (i : Nat) :
    ∃ w', (Prog.orElse (do
        modify (c.controller i) (setWorkstations userDn pre)
        log i) ()).run w = (.ok (), w') ∧ Restricted sam userDn (taken value pre) computers w' := by
  by_cases fits : (value.isNone || containsChar pre ',') = true
  · have free : value = none ∨ containsChar pre ',' = true := by
      rwa [Bool.or_eq_true, Option.isNone_iff_eq_none] at fits
    obtain ⟨ad, hset, limited⟩ := setWorkstations_eq h free
    obtain ⟨w', hlog, same⟩ := logs i { w with ad := ad, trace := w.trace ++ [] }
    refine ⟨w', ?_, ?_⟩
    · rw [Prog.run_orElse, Prog.run_bind, run_modify _ hset, succeed.controller]
      simp only [Bool.false_eq_true, if_false]
      rw [hlog]
    · rw [taken, if_pos fits]
      exact (limited _).of_ad same
  · have refused : setWorkstations userDn pre w.ad = none := by
      obtain ⟨a, ha, rfl⟩ := h.account
      simp only [Bool.or_eq_true, not_or, Bool.not_eq_true] at fits
      have kept := h.entries a ha (dnEq_refl _)
      have holds : w.ad.accounts.any (fun x => dnEq x.dn a.dn && x.userWorkstations.isSome) = true :=
        List.any_eq_true.mpr ⟨a, ha, by simp [kept, ← Option.isNone_eq_false_iff, fits.1]⟩
      rw [setWorkstations, if_neg (by simp [holds, fits.2])]
    refine ⟨w, ?_, ?_⟩
    · rw [Prog.run_orElse, Prog.run_bind, run_modify_none _ refused]
    · rw [taken, if_neg fits]
      exact h

/-- Once the list was sent to one controller, the others change nothing. -/
theorem run_limitOnAll {w : World} (h : Restricted sam userDn value computers w) (pre : String)
    (cfg : Config) :
    ∃ w', (onControllers cfg (fun i => do
        modify (c.controller i) (setWorkstations userDn pre)
        log i)).run w = (.ok (), w') ∧ Restricted sam userDn (taken value pre) computers w' := by
  have again : ∀ (dcs : List Nat) (w : World), Restricted sam userDn (taken value pre) computers w →
      ∃ w', (dcs.forM (fun i => Prog.orElse (do
        modify (c.controller i) (setWorkstations userDn pre)
        log i) ())).run w = (.ok (), w') ∧ Restricted sam userDn (taken value pre) computers w' := by
    intro dcs
    induction dcs with
    | nil => exact fun w h => ⟨w, rfl, h⟩
    | cons i dcs ih =>
      intro w h
      obtain ⟨w₁, hrun, h₁⟩ := run_limitOn succeed logs h pre i
      rw [taken_taken] at h₁
      obtain ⟨w₂, hrun', h₂⟩ := ih w₁ h₁
      exact ⟨w₂, (Prog.run_bind_ok hrun).trans hrun', h₂⟩
  obtain ⟨n, hn⟩ : ∃ n, cfg.dcs = n + 1 :=
    Nat.exists_eq_succ_of_ne_zero (Nat.pos_iff_ne_zero.mp cfg.dcs_pos)
  obtain ⟨first, rest, hdcs⟩ : ∃ first rest, List.range cfg.dcs = first :: rest :=
    ⟨0, _, by rw [hn, List.range_succ_eq_map]⟩
  obtain ⟨w₁, hrun, h₁⟩ := run_limitOn succeed logs h pre first
  obtain ⟨w₂, hrun', h₂⟩ := again rest w₁ h₁
  refine ⟨w₂, ?_, h₂⟩
  rw [onControllers, hdcs]
  exact (Prog.run_bind_ok hrun).trans hrun'

end OneHost

/-- What the directory makes of one more host. -/
def stored (computers : List Computer) (value : Option String) (host : String) : Option String :=
  match foundName computers host with
  | none => value
  | some name => taken value (extended value name)

/-- The attribute after one more host. -/
def afterHost (computers : List Computer) (value : Option String) (host : String) : Option String :=
  match foundName computers host with
  | none => value
  | some name => some (extended value name)

theorem run_addWorkstation {c : WorkstationCalls} (succeed : WorkstationCalls.Succeed c) (cfg : Config)
    (fqdn : String) (u : ADUser) (au : Option AuthUser) (clientip : Option String) {w : World}
    (h : Restricted u.sAMAccountName userDn value computers w) :
    ∃ w', (addWorkstationToADUser cfg c fqdn u au clientip).run w = (.ok u, w') ∧
      Restricted u.sAMAccountName userDn
        (stored computers value (keepOnly (· != ' ') fqdn)) computers w' := by
  rw [addWorkstationToADUser, stored, foundName]
  dsimp only
  by_cases ok : legal (keepOnly (· != ' ') fqdn) = true
  · have stated : ¬ (keepOnly (· != ' ') fqdn = "" ∨
        (!(keepOnly (· != ' ') fqdn).toList.all workstationChar) = true) := by
      simp only [legal, Bool.and_eq_true, bne_iff_ne] at ok
      simp [ok.1, ok.2]
    rw [if_neg stated, if_pos ok, Prog.run_orElse, Prog.run_bind]
    simp only [search, Prog.run_atom, succeed.find, Bool.false_eq_true, if_false, h.found]
    rw [Prog.run_bind, Prog.run_orElse]
    simp only [Prog.run_atom, succeed.computer, Bool.false_eq_true, if_false]
    rw [h.computers, ← foundComputer]
    cases uws : given ((foundComputer computers (keepOnly (· != ' ') fqdn)).map Computer.cn) with
    | none => exact ⟨w, rfl, h⟩
    | some name =>
      dsimp only
      rw [Prog.run_bind, Prog.run_orElse]
      simp only [Prog.run_atom, succeed.current, Bool.false_eq_true, if_false]
      have current : (w.ad.accounts.filter (fun a => dnEq a.dn userDn)).head?.bind
          Account.userWorkstations = value := h.workstations
      rw [current]
      let log (i : Nat) : Run Unit := audit (c.audit i) "limitWS" (au.bind AuthUser.uid) (some name)
        u.sAMAccountName none clientip
      have logs : ∀ i w, ∃ w', (log i).run w = (.ok (), w') ∧ w'.ad = w.ad :=
        fun i w => run_audit_ad _ _ _ _ _ _ _ w
      obtain ⟨w', hrun, limited⟩ := run_limitOnAll succeed logs h (extended value name) cfg
      refine ⟨w', ?_, limited⟩
      cases shape : given value with
      | none =>
        rw [extended, shape] at hrun
        dsimp only at hrun ⊢
        rw [Prog.run_bind_ok hrun]
        rfl
      | some pre =>
        rw [extended, shape] at hrun
        dsimp only at hrun ⊢
        rw [Prog.run_bind_ok hrun]
        rfl
  · have stated : keepOnly (· != ' ') fqdn = "" ∨
        (!(keepOnly (· != ' ') fqdn).toList.all workstationChar) = true := by
      simp only [legal, Bool.and_eq_true, bne_iff_ne, not_and] at ok
      by_cases empty : keepOnly (· != ' ') fqdn = ""
      · exact .inl empty
      · exact .inr (by simpa using ok empty)
    rw [if_pos stated, if_neg ok]
    exact ⟨w, rfl, h⟩

/-! ## All hosts of a request -/

/-- Only a value that is there and empty keeps the name out. -/
theorem stored_eq_afterHost (visible : value ≠ some "") (host : String) :
    stored computers value host = afterHost computers value host := by
  rw [stored, afterHost]
  cases foundName computers host with
  | none => rfl
  | some name =>
    refine if_pos ?_
    cases shape : value with
    | none => rfl
    | some pre =>
      have shown : pre ≠ "" := fun empty => visible (by rw [shape, empty])
      have comma : containsChar (pre ++ "," ++ name) ',' = true := by
        simp [containsChar]
      simp [extended, given_some shown, comma]

theorem afterHost_joined {names : List String} (visible : ∀ n ∈ names, n ≠ "") (host : String) :
    afterHost computers (joined names) host = joined (names ++ (foundName computers host).toList) := by
  rw [afterHost]
  cases foundName computers host with
  | none => simp
  | some name => exact (joined_append visible name).symm

theorem foldl_stored_joined (hosts : List String) {names : List String}
    (visible : ∀ n ∈ names, n ≠ "") :
    hosts.foldl (stored computers) (joined names) =
      joined (names ++ hosts.filterMap (foundName computers)) := by
  induction hosts generalizing names with
  | nil => simp
  | cons host hosts ih =>
    have visible₁ : ∀ n ∈ names ++ (foundName computers host).toList, n ≠ "" := by
      intro n hn
      rcases List.mem_append.mp hn with old | new
      · exact visible n old
      · exact (foundName_spec (Option.mem_toList.mp new)).1
    rw [List.foldl_cons, stored_eq_afterHost (joined_ne_empty visible), afterHost_joined visible,
      ih visible₁, List.append_assoc, List.filterMap_cons]
    cases foundName computers host with
    | none => rfl
    | some name => rfl

/-- The loop over the hosts, from any value of the attribute. -/
theorem run_addWorkstations {c : Nat → WorkstationCalls}
    (succeed : ∀ i, WorkstationCalls.Succeed (c i)) (cfg : Config) (u : ADUser) (au : Option AuthUser)
    (clientip : Option String) (hosts : List (String × Nat)) {value : Option String} {w : World}
    (h : Restricted u.sAMAccountName userDn value computers w) :
    ∃ w', (hosts.foldlM (fun u host => addWorkstationToADUser cfg (c host.2) host.1 u au clientip)
        u).run w = (.ok u, w') ∧
      Restricted u.sAMAccountName userDn ((hosts.map (fun host => keepOnly (· != ' ') host.1)).foldl
        (stored computers) value) computers w' := by
  induction hosts generalizing value w with
  | nil => exact ⟨w, rfl, h⟩
  | cons host hosts ih =>
    obtain ⟨w₁, hrun, h₁⟩ := run_addWorkstation (succeed host.2) cfg host.1 u au clientip h
    obtain ⟨w₂, hrun', h₂⟩ := ih h₁
    refine ⟨w₂, ?_, h₂⟩
    rw [List.foldlM_cons, Prog.run_bind_ok hrun, hrun']

/-- The parts of the request as the loop of `handleCheckOutPost` hands them on. -/
theorem parts_eq_requestedHosts (hosts : String) :
    (javaSplit ',' hosts).zipIdx.map (fun host => keepOnly (· != ' ') host.1) =
      requestedHosts hosts := by
  have stripped : (fun host : String × Nat => keepOnly (· != ' ') host.1) =
      (keepOnly (· != ' ')) ∘ Prod.fst := rfl
  rw [stripped, ← List.map_map, List.zipIdx_map_fst, requestedHosts]

/-! ## The account before the hosts -/

/-- Name, DN and workstations of every account. -/
def limits (ad : Directory) : List (String × String × Option String) :=
  ad.accounts.map (fun a => (a.sam, a.dn, a.userWorkstations))

def place (w : World) : List (String × String × Option String) × List Computer :=
  (limits w.ad, w.ad.computers)

theorem names_of_limits (ad : Directory) : names ad = (limits ad).map (fun x => (x.1, x.2.1)) := by
  simp [names, limits]

theorem Restricted.of_place {w w' : World} (h : Restricted sam userDn value computers w)
    (same : place w' = place w) : Restricted sam userDn value computers w' := by
  have accounts : limits w'.ad = limits w.ad := congrArg Prod.fst same
  constructor
  · rw [← h.found]
    exact congrArg List.head?
      (accountDns_of_names (by rw [names_of_limits, names_of_limits, accounts]) sam)
  · intro a ha same_dn
    have mem : (a.sam, a.dn, a.userWorkstations) ∈ limits w'.ad := List.mem_map_of_mem ha
    rw [accounts] at mem
    obtain ⟨b, hb, eq⟩ := List.mem_map.mp mem
    simp only [Prod.mk.injEq] at eq
    rw [← eq.2.2]
    apply h.entries b hb
    rw [eq.2.1]
    exact same_dn
  · exact (congrArg Prod.snd same).trans h.computers

theorem limits_updateWhere {sel : Account → Bool} {f : Account → Account} (ad : Directory)
    (same : ∀ a, ((f a).sam, (f a).dn, (f a).userWorkstations) = (a.sam, a.dn, a.userWorkstations)) :
    limits { ad with accounts := updateWhere sel f ad.accounts } = limits ad :=
  map_updateWhere same ad.accounts

theorem keeps_refl (w : World) : Keeps place w w := rfl

theorem keeps_logs : Logs (Keeps place) := ⟨keeps_refl, fun _ _ => rfl⟩

theorem keeps_addMember (fails : Bool) (sam userDn groupDN : String) :
    (modify fails (addMember sam userDn groupDN)).Steps (Keeps place) := by
  refine steps_modify keeps_refl fails ?_
  intro w ad effects h
  rw [addMember] at h
  split at h
  · cases h
    exact Prod.ext (limits_updateWhere w.ad (fun _ => rfl)) rfl
  · cases h

theorem keeps_addGroupToADUser (cfg : Config) (c : GroupCalls) (urn : Option String)
    (u : Option ADUser) (au : Option AuthUser) (clientip : Option String) :
    (addGroupToADUser cfg c urn u au clientip).Steps (Keeps place) :=
  steps_addGroupToADUser keeps_refl keeps_addMember (steps_audit keeps_logs) _ _ _ _ _ _

theorem keeps_assignGroup (cfg : Config) (c : CheckoutCalls) (au : AuthUser) (addr : Option String)
    (u : ADUser) (g : String × Nat) : (assignGroup cfg c au addr u g).Steps (Keeps place) := by
  have add : ((addGroupToADUser cfg (c.group g.2) (some g.1) (some u) (some au) addr >>=
      fun o => pure (o.getD u)) : Run ADUser).Steps (Keeps place) :=
    Prog.steps_bind (keeps_addGroupToADUser _ _ _ _ _ _) (fun _ => Prog.steps_pure _)
  rw [assignGroup]
  split
  · refine Prog.steps_bind (Prog.steps_orElse (Prog.steps_bind (steps_execute keeps_refl _ _ _
      keeps_refl) (fun _ => ?_)) _) (fun _ => add)
    exact Prog.steps_bind (steps_audit keeps_logs _ _ _ _ _ _ _) (fun _ => Prog.steps_pure _)
  · exact add

/-- Accounts may be added, none of them restricted. -/
def Grows (w w' : World) : Prop :=
  ∃ added, limits w'.ad = limits w.ad ++ added ∧ (∀ x ∈ added, x.2.2 = none) ∧
    w'.ad.computers = w.ad.computers

theorem grows_refl (w : World) : Grows w w := ⟨[], (List.append_nil _).symm, by simp, rfl⟩

theorem grows_trans (w w' w'' : World) (h : Grows w w') (h' : Grows w' w'') : Grows w w'' := by
  obtain ⟨added, eq, free, same⟩ := h
  obtain ⟨added', eq', free', same'⟩ := h'
  refine ⟨added ++ added', by rw [eq', eq, List.append_assoc], ?_, same'.trans same⟩
  intro x hx
  rcases List.mem_append.mp hx with first | second
  · exact free x first
  · exact free' x second

theorem grows_createRandomizedADUser (cfg : Config) (c : CreateCalls) (au : Option AuthUser)
    (w : World) : Grows w ((createRandomizedADUser cfg c au).run w).2 := by
  apply Prog.run_related grows_refl grows_trans
  apply steps_createRandomizedADUser ⟨grows_refl, fun w _ => grows_refl w⟩
  · intro fails a unlimited
    refine steps_modify grows_refl fails ?_
    rintro w _ _ ⟨rfl⟩
    exact ⟨[(a.sam, a.dn, a.userWorkstations)], by simp [limits], by simpa using unlimited, rfl⟩
  · intro fails dn f credential
    refine steps_modify grows_refl fails ?_
    intro w ad effects h
    rw [changeAccount] at h
    split at h
    · cases h
      refine ⟨[], ?_, by simp, rfl⟩
      have same : ∀ a, ((f a).sam, (f a).dn, (f a).userWorkstations) =
          (a.sam, a.dn, a.userWorkstations) := by
        intro a
        rw [credential a]
      rw [limits_updateWhere w.ad same]
      exact (List.append_nil _).symm
    · cases h

/-- A name that was found has been drawn and is free. -/
theorem nextName_free {c : CreateCalls} {tries i : Nat} {w w' : World} {sam : String}
    (h : (nextName c tries i).run w = (.ok sam, w')) :
    (∃ j, sam = c.names j) ∧ ∀ a ∈ w.ad.accounts, nameEq a.sam sam = false := by
  induction tries generalizing i with
  | zero => cases h
  | succ tries ih =>
    rw [nextName, isSamaccountnameAvailable] at h
    by_cases empty : c.names i = ""
    · rw [if_pos empty] at h
      exact ih h
    · rw [if_neg empty, Prog.run_bind] at h
      cases failed : c.lookup i with
      | true =>
        rw [failed] at h
        cases h
      | false =>
        simp only [search, failed, Prog.run_atom, Bool.false_eq_true, if_false] at h
        cases free : w.ad.accounts.any (fun a => nameEq a.sam (c.names i)) with
        | true =>
          rw [free] at h
          exact ih h
        | false =>
          rw [free] at h
          cases h
          exact ⟨⟨i, rfl⟩, fun a ha => by simpa using List.any_eq_false.mp free a ha⟩

/-- The new account: its name was free, and it stands at its place in the tree without a limit. -/
theorem restricted_created {cfg : Config} {c : CreateCalls} {au : Option AuthUser} {w w' : World}
    {sam : String} (created : (createRandomizedADUser cfg c au).run w =
      (.ok (some (randomizedUser cfg c sam)), w')) (taken : accepted cfg c = true)
    (unoccupied : ∀ a ∈ w.ad.accounts, ∀ i, dnEq a.dn (accountDn cfg (c.names i)) = true →
      nameEq a.sam (c.names i) = true) :
    plainName sam = true ∧ Restricted (some sam) (accountDn cfg sam) none w.ad.computers w' ∧
      ∀ p ∈ names w'.ad, nameEq p.1 sam = true → p.2 = accountDn cfg sam := by
  have grown := grows_createRandomizedADUser cfg c au w
  rw [created] at grown
  obtain ⟨added, eq, free, same⟩ := grown
  rcases run_createRandomizedADUser cfg c au w with hnone | ⟨sam', k, w₂, hname, hrun, h, hk⟩
  · rw [created] at hnone
    cases hnone
  rw [created] at hrun
  obtain ⟨value, rfl⟩ := Prod.mk.inj hrun
  have user : randomizedUser cfg c sam = randomizedUser cfg c sam' :=
    Option.some.inj (Except.ok.inj value)
  cases Option.some.inj (congrArg ADUser.sAMAccountName user)
  obtain ⟨⟨i, drawn⟩, named⟩ := nextName_free hname
  have plain : plainName sam = true := drawn ▸ c.drawn i
  have unnamed : ∀ p ∈ names w.ad, nameEq p.1 sam = false := by
    intro p hp
    obtain ⟨a, ha, rfl⟩ := List.mem_map.mp hp
    exact named a ha
  have placed : ∀ p ∈ names w'.ad, nameEq p.1 sam = true → p.2 = accountDn cfg sam := by
    intro p hp same_name
    rw [h.names] at hp
    rcases List.mem_append.mp hp with old | new
    · rw [unnamed p old] at same_name
      cases same_name
    · rw [(List.mem_replicate.mp new).2]
  refine ⟨plain, ⟨?_, ?_, same⟩, placed⟩
  · cases dns : (accountDns w'.ad (some sam)).head? with
    | none =>
      have present := accountDns_created h (hk.mpr taken)
      rw [dns] at present
      cases present
    | some dn =>
      obtain ⟨a, ha, rfl⟩ := List.mem_map.mp (List.mem_of_mem_head? dns)
      obtain ⟨mem, same_name⟩ := mem_found.mp ha
      rw [javaString, Option.getD_some, finds_plainName plain] at same_name
      exact congrArg some (placed (a.sam, a.dn) (List.mem_map_of_mem mem) same_name)
  · intro a ha same_dn
    have mem : (a.sam, a.dn, a.userWorkstations) ∈ limits w'.ad := List.mem_map_of_mem ha
    rw [eq] at mem
    rcases List.mem_append.mp mem with old | new
    · obtain ⟨b, hb, entry⟩ := List.mem_map.mp old
      simp only [Prod.mk.injEq] at entry
      rw [← entry.2.1] at same_dn
      subst drawn
      have same_name := unoccupied b hb i same_dn
      rw [named b hb] at same_name
      cases same_name
    · exact free _ new

/-! ## The request -/

/-- The answer of a gate does not show a credential. -/
def Refusal (answer : Option Page) : Prop := ∀ text, answer ≠ some (.checkedout text)

theorem returns_refuseUnless (check : Run Bool) (message : String) :
    (refuseUnless check message).Returns Refusal := by
  refine Prog.returns_bind (Prog.returns_any _) (fun passed _ => ?_)
  cases passed with
  | true => exact Prog.returns_pure (fun _ h => by cases h)
  | false => exact Prog.returns_pure (fun _ h => by cases h)

theorem returns_csrfGate (c : TokenCalls) (req : Request) (token : Option String) (m : CsrfMessages) :
    (csrfGate c req token m).Returns Refusal := by
  unfold csrfGate
  split
  · cases token with
    | none => exact Prog.returns_pure (fun _ h => by cases h)
    | some token =>
      refine Prog.returns_bind (Prog.returns_any _) (fun valid _ => ?_)
      split
      · exact Prog.returns_pure (fun _ h => by cases h)
      · exact Prog.returns_pure (fun _ h => by cases h)
  · exact Prog.returns_pure (fun _ h => by cases h)

theorem returns_inOrder {gs : List Gate} (h : ∀ g ∈ gs, g.Returns Refusal) :
    (inOrder gs).Returns Refusal := by
  induction gs with
  | nil => exact Prog.returns_pure (fun _ h => by cases h)
  | cons g gs ih =>
    refine Prog.returns_bind (h g List.mem_cons_self) (fun answer refusal => ?_)
    cases answer with
    | some page => exact Prog.returns_pure refusal
    | none => exact ih (fun g' hg' => h g' (List.mem_cons_of_mem g hg'))

theorem returns_checkoutGates (cfg : Config) (c : CheckoutCalls) (req : Request)
    (form : CheckedOutCredRequest) : (inOrder (checkoutGates cfg c req form)).Returns Refusal := by
  apply returns_inOrder
  intro g hg
  simp only [checkoutGates, List.mem_cons] at hg
  rcases hg with rfl | rfl | hg
  · exact returns_refuseUnless _ _
  · exact returns_csrfGate _ _ _ _
  · obtain ⟨x, -, rfl⟩ := List.mem_map.mp hg
    rw [groupGate]
    split
    · exact returns_refuseUnless _ _
    · exact returns_refuseUnless _ _

/-- Everything after the account exists: the groups leave the attribute alone, the hosts fill it. -/
theorem restricted_register {cfg : Config} {c : CheckoutCalls} (req : Request)
    {form : CheckedOutCredRequest} {hosts : String} (stated : form.targetHost = some hosts)
    (succeed : ∀ i, WorkstationCalls.Succeed (c.workstation i)) (u : ADUser) {w : World}
    (h : Restricted u.sAMAccountName userDn none computers w) :
    ∃ w', (registerCheckout cfg c req form u).run w = (.ok (.checkedout
        ("Your checked out user id is " ++ javaString u.sAMAccountName ++ " with password " ++
          javaString u.adPassword ++ " which will be valid until " ++
          c.localeString (expiration c form))), w') ∧
      Restricted u.sAMAccountName userDn (joined (foundNames computers hosts)) computers w' ∧
      names w'.ad = names w.ad := by
  have kept₁ := keeps_run (Prog.steps_foldlM (keeps_assignGroup cfg c req.authUser req.remoteAddr)
    (requestedGroups form).zipIdx u) w
  obtain ⟨u₁, w₁, hassign, ⟨_, ⟨rfl⟩, sam₁, password₁, -⟩, hn₁, -⟩ :=
    run_assignGroups cfg c req.authUser
    req.remoteAddr (requestedGroups form).zipIdx u w
  rw [hassign] at kept₁
  have kept₂ := keeps_run (keeps_addGroupToADUser cfg c.default (some cfg.defgroupdn) (some u₁)
    (some req.authUser) req.remoteAddr) w₁
  obtain ⟨u₂, w₂, hdefault, ⟨_, ⟨rfl⟩, sam₂, password₂, -⟩, hn₂, -⟩ :=
    run_addGroupToADUser cfg c.default
    cfg.defgroupdn u₁ (some req.authUser) req.remoteAddr w₁
  rw [hdefault] at kept₂
  have h₂ : Restricted u₂.sAMAccountName userDn (joined []) computers w₂ := by
    rw [sam₂, sam₁]
    exact (h.of_place kept₁).of_place kept₂
  obtain ⟨w₃, hlimit, same, -⟩ := run_limitHosts cfg c req.authUser req.remoteAddr
    (javaSplit ',' hosts).zipIdx u₂ w₂
  obtain ⟨w₃', hlimit', h₃⟩ := run_addWorkstations succeed cfg u₂ (some req.authUser) req.remoteAddr
    (javaSplit ',' hosts).zipIdx h₂
  rw [hlimit] at hlimit'
  obtain ⟨-, rfl⟩ := Prod.mk.inj hlimit'
  have visible : ∀ n ∈ ([] : List String), n ≠ "" := by simp
  rw [parts_eq_requestedHosts, foldl_stored_joined _ visible, List.nil_append] at h₃
  obtain ⟨w₄, hstore, kept₄⟩ : ∃ w₄, (storeCheckedOutUser c.store (checkoutRow c req form u₂)).run w₃ =
      (.ok (!c.store), w₄) ∧ w₄.ad = w₃.ad := by
    refine ⟨_, run_storeCheckedOutUser c.store _ w₃, ?_⟩
    cases c.store <;> rfl
  rw [registerCheckout]
  dsimp only
  rw [Prog.run_bind_ok hassign, Prog.run_bind_ok hdefault, stated]
  refine ⟨w₄, (Prog.run_bind_ok hlimit).trans ((Prog.run_bind_ok hstore).trans ?_), ?_, ?_⟩
  · rw [Prog.run_pure, ← sam₁, ← sam₂, ← password₁, ← password₂]
  · rw [← sam₁, ← sam₂]
    exact h₃.of_ad kept₄
  · rw [← hn₁, ← hn₂, ← same.names, kept₄]

/-- A request that shows its credential has put the names of the computers found for its hosts, and
nothing else, into the attribute; it is left without a value exactly if no host is both legal and
found. -/
theorem checkout_restricted_to_found_hosts (cfg : Config) (c : CheckoutCalls) (req : Request)
    (form : CheckedOutCredRequest) (w : World) (hosts text : String)
    (stated : form.targetHost = some hosts)
    (succeed : ∀ i, WorkstationCalls.Succeed (c.workstation i))
    (created : accepted cfg c.create = true)
    (unoccupied : ∀ a ∈ w.ad.accounts, ∀ i, dnEq a.dn (accountDn cfg (c.create.names i)) = true →
      nameEq a.sam (c.create.names i) = true)
    (shown : ((handleCheckOutPost cfg c req form).run w).1 = .ok (.checkedout text)) :
    ∃ sam, text = "Your checked out user id is " ++ sam ++ " with password " ++ c.create.password ++
        " which will be valid until " ++ c.localeString (expiration c form) ∧
      (∃ a ∈ ((handleCheckOutPost cfg c req form).run w).2.ad.accounts, nameEq a.sam sam = true) ∧
      (∀ a ∈ ((handleCheckOutPost cfg c req form).run w).2.ad.accounts, nameEq a.sam sam = true →
        a.userWorkstations = joined (foundNames w.ad.computers hosts)) ∧
      (∀ name ∈ foundNames w.ad.computers hosts, ∃ m ∈ w.ad.computers, m.cn = name ∧
        ∃ host ∈ requestedHosts hosts, ∃ dns, m.dnsHostName = some dns ∧ nameEq dns host = true) ∧
      (joined (foundNames w.ad.computers hosts) = none ↔ ∀ host ∈ requestedHosts hosts,
        legal host = true → ∀ m, foundComputer w.ad.computers host = some m → m.cn = "") := by
  have gates := onlyTokens_run (steps_inOrder (onlyTokens_checkoutGates cfg c req form)) w
  have refusal := returns_checkoutGates cfg c req form
  rw [handleCheckOutPost, withAccount, Prog.run_bind] at shown ⊢
  rcases hgate : (inOrder (checkoutGates cfg c req form)).run w with ⟨e | page, w₁⟩
  · rw [hgate] at shown
    cases shown
  rw [hgate] at shown gates
  cases page with
  | some page =>
    cases Except.ok.inj shown
    exact absurd rfl (refusal.run (congrArg Prod.fst hgate) text)
  | none =>
    dsimp only at shown ⊢
    obtain ⟨tokens, rfl⟩ : OnlyTokens w w₁ := gates
    rcases run_createRandomizedADUser cfg c.create none
        { w with db := { w.db with csrfTokens := tokens } } with
      hnone | ⟨sam, k, w₂, -, hrun, -, -⟩
    · rw [Prog.run_bind_ok hnone] at shown
      cases shown
    · obtain ⟨plain, start, placed⟩ := restricted_created hrun created unoccupied
      obtain ⟨w₃, hbody, limited, kept⟩ := restricted_register req stated succeed
        (randomizedUser cfg c.create sam) start
      rw [Prog.run_bind_ok hrun] at shown ⊢
      replace hbody : (deref (some (randomizedUser cfg c.create sam)) >>=
          registerCheckout cfg c req form).run w₂ = _ := hbody
      rw [hbody] at shown ⊢
      refine ⟨sam, ?_, ?_, ?_, ?_, joined_none_iff⟩
      · cases Except.ok.inj shown
        rfl
      · obtain ⟨a, ha, -⟩ := List.mem_map.mp (List.mem_of_mem_head? limited.found)
        obtain ⟨mem, same⟩ := mem_found.mp ha
        exact ⟨a, mem, (finds_plainName plain _).symm.trans same⟩
      · intro a ha same
        have here : (a.sam, a.dn) ∈ names w₂.ad := by
          rw [← kept]
          exact List.mem_map_of_mem ha
        have dn : a.dn = accountDn cfg sam := placed (a.sam, a.dn) here same
        exact limited.entries a ha (by rw [dn]; exact dnEq_refl _)
      · intro name mem
        obtain ⟨host, asked, found⟩ := List.mem_filterMap.mp mem
        obtain ⟨-, m, hm, cn, dns, hdns, same⟩ := foundName_spec found
        exact ⟨m, hm, cn, host, asked, dns, hdns, same⟩

/-- The site of Pat's checkouts, with one computer. -/
def labSite : World :=
  { checkoutSite with ad := ⟨[], [], [⟨"LAB1", "cn=LAB1,ou=labs,dc=dom", some "lab1.dom.ain"⟩]⟩ }

def labCalls : CheckoutCalls := .noOutage "ab3de6fgh-eas" "secret" 0

def checkedOut (targetHost : String) : World :=
  ((handleCheckOutPost sampleConfig labCalls sampleRequest (checkoutRequest (some targetHost))).run
    labSite).2

def credentialText : String :=
  "Your checked out user id is ab3de6fgh-eas with password secret which will be valid until "

/-- Of two hosts one is found. -/
theorem lab_host_kept :
    ∃ sam, credentialText = "Your checked out user id is " ++ sam ++ " with password " ++
        labCalls.create.password ++ " which will be valid until " ++
        labCalls.localeString (expiration labCalls
          (checkoutRequest (some "lab1.dom.ain, gone.dom.ain"))) ∧
      (∃ a ∈ (checkedOut "lab1.dom.ain, gone.dom.ain").ad.accounts, nameEq a.sam sam = true) ∧
      (∀ a ∈ (checkedOut "lab1.dom.ain, gone.dom.ain").ad.accounts, nameEq a.sam sam = true →
        a.userWorkstations = some "LAB1") := by
  obtain ⟨sam, text, present, limited, -⟩ := checkout_restricted_to_found_hosts sampleConfig labCalls
    sampleRequest (checkoutRequest (some "lab1.dom.ain, gone.dom.ain")) labSite
    "lab1.dom.ain, gone.dom.ain" credentialText rfl (fun _ => ⟨rfl, rfl, rfl, fun _ => rfl⟩)
    (by decide +kernel) (by simp [labSite]) (by decide +kernel)
  refine ⟨sam, text, present, fun a ha same => (limited a ha same).trans ?_⟩
  decide +kernel

/-- A request for a host without a computer object shows a credential that is not restricted. -/
theorem unknown_host_unrestricted :
    ((handleCheckOutPost sampleConfig labCalls sampleRequest
        (checkoutRequest (some "gone.dom.ain"))).run labSite).1 = .ok (.checkedout credentialText) ∧
      (checkedOut "gone.dom.ain").ad.accounts.map (fun a => (a.sam, a.userWorkstations)) =
        [("ab3de6fgh-eas", none)] := by
  decide +kernel

end HostRestriction
