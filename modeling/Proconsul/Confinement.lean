import Proconsul.RelyGuarantee
import Proconsul.Handlers

/-!
# Account operations that stay where they belong

The application looks accounts up by name and changes what it finds under their DNs.
An invariant that says where the names of one kind lead, and that survives any change
under those DNs, survives every account operation for a user of such a name, and the
writes of a session that belongs to one. What kind of names and which DNs is left open.

Ports and containers are not considered, nor how a name is drawn.
-/

namespace Confinement

open Program Schema Text Surroundings Access Hosts Accounts Sessions Handlers RelyGuarantee

/-- `I` survives whatever is done under the DNs in `D`, and a search for a name in `N` finds no
others. -/
structure Confines (I : World → Prop) (N : Option String → Prop) (D : String → Prop) : Prop where
  logs : Logs (fun w w' => I w → I w')
  tokens : ∀ {w w'}, OnlyTokens w w' → I w → I w'
  found : ∀ {w name dn}, I w → N name → dn ∈ accountDns w.ad name → D dn
  add : ∀ {w} (b : Account) effects, I w → N (some b.sam) → D b.dn →
    I { w with ad := { w.ad with accounts := w.ad.accounts ++ [b] }, trace := w.trace ++ effects }
  change : ∀ {w dn} (f : Account → Account) effects, I w → D dn →
    (∀ x, (f x).sam = x.sam ∧ (f x).dn = x.dn) →
    I { w with
      ad := { w.ad with accounts := updateWhere (fun a => dnEq a.dn dn) f w.ad.accounts }
      trace := w.trace ++ effects }
  destroy : ∀ {w dn} effects, I w → D dn →
    I { w with
      ad := { w.ad with accounts := deleteWhere (fun a => dnEq a.dn dn) w.ad.accounts }
      trace := w.trace ++ effects }
  register : ∀ {w name} (now : Int) effects, I w → N name →
    I { w with
      db := { w.db with activeDomainAdmins := w.db.activeDomainAdmins ++ [⟨name, some now, some 0⟩] }
      trace := w.trace ++ effects }
  disable : ∀ {w name} (now : Int), I w → N name →
    let disabled := updateWhere (fun r => sqlEq r.samaccountname name)
      (fun r : ActiveDomainAdminRow => { r with disabletime := some now }) w.db.activeDomainAdmins
    I { w with db := { w.db with activeDomainAdmins := disabled } }
  write : ∀ s : ProconsulSession, N s.targetUser.sAMAccountName → Permits (fun w w' => I w → I w') s

/-- Whatever the others do within `I`, the program keeps it and returns values in `V`. -/
abbrev Within {α : Type} (I : World → Prop) (V : α → Prop) (p : Run α) : Prop :=
  Upholds I (fun _ _ => True) V p

/-- Whoever is given has a name of the kind. -/
def Named (N : Option String → Prop) (o : Option ADUser) : Prop := ∀ u, o = some u → N u.sAMAccountName

/-- The same for the groups of the admin handlers, which may also end with a page. -/
def NamedOr (N : Option String → Prop) (r : Page ⊕ Option ADUser) : Prop := ∀ o, r = .inr o → Named N o

section Rules

variable {I : World → Prop} {α : Type} {V : α → Prop}

theorem within_of_steps {p : Run α} (hp : p.Steps (fun w w' => I w → I w')) (hv : p.Returns V) :
    Within I V p :=
  upholds_of_steps hp hv (fun _ _ inv kept => ⟨kept inv, trivial⟩)

theorem within_reads {p : Run α} (hp : p.Reads) (hv : p.Returns V) : Within I V p :=
  within_of_steps (hp.steps (fun _ inv => inv)) hv

theorem within_deref {o : Option α} (h : ∀ x, o = some x → V x) : Within I V (deref o) := by
  cases o with
  | none => exact upholds_throwing _
  | some x => exact upholds_pure (h x rfl)

theorem within_query {fails : Bool} {t : Table} {named : List String} {read : Database → α}
    (found : ∀ w, I w → V (read w.db)) : Within I V (query fails t named read) := by
  refine upholds_atom (fun w inv => ?_)
  split
  · exact ⟨inv, trivial, fun x hx => by cases hx⟩
  · exact ⟨inv, trivial, fun x hx => by cases hx; exact found w inv⟩

theorem within_search {fails : Bool} {read : Directory → α} (found : ∀ w, I w → V (read w.ad)) :
    Within I V (search fails read) := by
  refine upholds_atom (fun w inv => ?_)
  split
  · exact ⟨inv, trivial, fun x hx => by cases hx⟩
  · exact ⟨inv, trivial, fun x hx => by cases hx; exact found w inv⟩

theorem within_modify {fails : Bool} {change : Directory → Option (Directory × List Effect)}
    (kept : ∀ (w : World) ad effects, I w → change w.ad = some (ad, effects) →
      I { w with ad := ad, trace := w.trace ++ effects }) :
    Within I (fun _ => True) (modify fails change) :=
  within_of_steps (steps_modify (fun _ inv => inv) fails (fun w ad effects changed inv =>
    kept w ad effects inv changed)) (Prog.returns_any _)

theorem within_onControllers (cfg : Config) {call : Nat → Run Unit}
    (h : ∀ i, Within I (fun _ => True) (call i)) : Within I (fun _ => True) (onControllers cfg call) :=
  upholds_forM (fun i _ => upholds_orElse (h i) trivial)

end Rules

theorem named_some {N : Option String → Prop} {u : ADUser} (name : N u.sAMAccountName) :
    Named N (some u) := by
  rintro _ ⟨⟩
  exact name

theorem namedOr_inl (N : Option String → Prop) (page : Page) : NamedOr N (.inl page) := by
  rintro o ⟨⟩

theorem namedOr_inr {N : Option String → Prop} {o : Option ADUser} (named : Named N o) :
    NamedOr N (.inr o) := by
  rintro _ ⟨⟩
  exact named

theorem given_eq {name : Option String} {sam : String} (h : given name = some sam) :
    name = some sam :=
  (Option.filter_eq_some_iff.mp h).1

section Operations

variable {I : World → Prop} {N : Option String → Prop} {D : String → Prop} {cfg : Config}
variable (confines : Confines I N D)

include confines

/-! ## One change -/

theorem within_audit (fails : Bool) (event : String)
    (authUser targetHost targetUser targetGroup clientIp : Option String) :
    Within I (fun _ => True) (audit fails event authUser targetHost targetUser targetGroup clientIp) :=
  within_of_steps (steps_audit confines.logs _ _ _ _ _ _ _) (Prog.returns_any _)

theorem within_find {fails : Bool} {name : Option String} (named : N name) :
    Within I (fun dns => ∀ dn ∈ dns, D dn) (search fails (fun ad => accountDns ad name)) :=
  within_search (fun _ inv _ found => confines.found inv named found)

theorem within_addAccount {fails : Bool} {b : Account} (named : N (some b.sam)) (placed : D b.dn) :
    Within I (fun _ => True) (modify fails (addAccount b)) := by
  refine within_modify (fun w ad effects inv changed => ?_)
  cases changed
  exact confines.add b _ inv named placed

theorem within_changeAccount {fails : Bool} {dn : String} {f : Account → Account} (placed : D dn)
    (same : ∀ x, (f x).sam = x.sam ∧ (f x).dn = x.dn) :
    Within I (fun _ => True) (modify fails (changeAccount dn f)) := by
  refine within_modify (fun w ad effects inv changed => ?_)
  rw [changeAccount] at changed
  split at changed
  · cases changed
    exact confines.change f _ inv placed same
  · cases changed

theorem within_destroySubcontext {fails : Bool} {dn : String} (placed : D dn) :
    Within I (fun _ => True) (modify fails (destroySubcontext dn)) := by
  refine within_modify (fun w ad effects inv changed => ?_)
  cases changed
  exact confines.destroy _ inv placed

theorem within_addMember {fails : Bool} {sam userDn groupDN : String} (placed : D userDn) :
    Within I (fun _ => True) (modify fails (addMember sam userDn groupDN)) := by
  refine within_modify (fun w ad effects inv changed => ?_)
  rw [addMember] at changed
  split at changed
  · cases changed
    exact confines.change _ _ inv placed (fun _ => ⟨rfl, rfl⟩)
  · cases changed

theorem within_setWorkstations {fails : Bool} {userDn pre : String} (placed : D userDn) :
    Within I (fun _ => True) (modify fails (setWorkstations userDn pre)) := by
  refine within_modify (fun w ad effects inv changed => ?_)
  rw [setWorkstations, changeAccount] at changed
  split at changed
  · split at changed
    · cases changed
      exact confines.change _ _ inv placed (fun _ => ⟨rfl, rfl⟩)
    · cases changed
  · cases changed

/-! ## Creation and deletion -/

theorem within_createOn {b : Account} (named : N (some b.sam)) (placed : D b.dn)
    (answers : ControllerAnswers) (created : Bool) :
    Within I (fun _ => True) (createOn b answers created) := by
  rw [createOn]
  split
  · have added : Within I (fun _ => True) (Prog.attempt (modify answers.create (addAccount b))) :=
      upholds_attempt (within_addAccount confines named placed) (fun _ _ => trivial) trivial
    refine upholds_bind added (fun done _ => ?_)
    cases done <;> exact upholds_pure trivial
  · exact upholds_pure trivial

theorem within_createAdUser (c : CreateCalls) (au : Option AuthUser) {u : ADUser}
    (name : N u.sAMAccountName)
    (placed : ∀ sam, u.sAMAccountName = some sam → D ("cn=" ++ sam ++ "," ++ javaString u.adOu)) :
    Within I (Named N) (createAdUser cfg c au u) := by
  rw [createAdUser]
  split
  · rename_i sam _ known _
    have isSam : u.sAMAccountName = some sam := given_eq known
    have kind : N (some sam) := isSam ▸ name
    refine upholds_bind (within_reads (reads_posixFor _ _) (Prog.returns_any _)) (fun posix _ => ?_)
    have dn : D (newAccount u sam posix).dn := placed sam isSam
    refine upholds_bind (upholds_foldlM (V := fun _ => True)
      (fun _ i _ => within_createOn confines kind dn _ _) _ trivial) (fun _ _ => ?_)
    refine upholds_bind (within_onControllers cfg (fun i =>
      within_changeAccount confines dn (fun _ => ⟨rfl, rfl⟩))) (fun _ _ => ?_)
    refine upholds_bind (within_onControllers cfg (fun i =>
      within_changeAccount confines dn (fun _ => ⟨rfl, rfl⟩))) (fun _ _ => ?_)
    have created : Named N (some { u with created := true }) := named_some name
    cases au with
    | none =>
      exact upholds_bind (within_audit confines _ _ _ _ _ _ _) (fun _ _ => upholds_pure created)
    | some au =>
      exact upholds_bind (within_audit confines _ _ _ _ _ _ _) (fun _ _ => upholds_pure created)
  · exact upholds_pure (fun _ h => by cases h)

theorem within_deleteAdUser (c : DeleteCalls) {u : ADUser} (name : N u.sAMAccountName)
    (au : Option AuthUser) (clientip : Option String) :
    Within I (fun _ => True) (deleteAdUser cfg c u au clientip) := by
  rw [deleteAdUser]
  split
  · rename_i sam _ known _
    have kind : N (some sam) := given_eq known ▸ name
    refine upholds_orElse (upholds_bind (within_find confines kind) (fun dns placed => ?_)) trivial
    refine upholds_bind (upholds_forM (fun d hd => upholds_forM (fun i _ => ?_))) (fun _ _ => ?_)
    · have found : d.1 ∈ dns := List.fst_mem_of_mem_zipIdx hd
      exact within_destroySubcontext confines (placed d.1 found)
    · exact upholds_bind (within_audit confines _ _ _ _ _ _ _) (fun _ _ => upholds_pure trivial)
  · exact upholds_pure trivial

/-! ## Passwords, groups and workstations -/

theorem within_setRandomADPassword (c : PasswordCalls) {u : ADUser} (name : N u.sAMAccountName) :
    Within I (fun u' => N u'.sAMAccountName) (setRandomADPassword cfg c u) := by
  refine upholds_orElse (upholds_bind (within_find confines name) (fun dns placed => ?_)) name
  cases hd : dns.head? with
  | none => exact upholds_pure name
  | some dn =>
    have there := placed dn (List.mem_of_mem_head? hd)
    exact upholds_bind (within_onControllers cfg (fun i =>
      within_changeAccount confines there (fun _ => ⟨rfl, rfl⟩))) (fun _ _ => upholds_pure name)

theorem within_addGroupToADUser (c : GroupCalls) (urn : Option String) {o : Option ADUser}
    (named : Named N o) (au : Option AuthUser) (clientip : Option String) :
    Within I (Named N) (addGroupToADUser cfg c urn o au clientip) := by
  rcases urn with _ | urn <;> rcases o with _ | u
  any_goals exact upholds_pure named
  have name := named u rfl
  refine upholds_orElse (upholds_bind (within_find confines name) (fun dns placed => ?_)) named
  cases hd : dns.head? with
  | none => exact upholds_pure named
  | some dn =>
    have there := placed dn (List.mem_of_mem_head? hd)
    refine upholds_bind (within_onControllers cfg (fun i => ?_)) (fun _ _ => ?_)
    · exact upholds_bind (within_addMember confines there)
        (fun _ _ => within_audit confines _ _ _ _ _ _ _)
    · split
      · exact upholds_pure named
      · exact upholds_pure (named_some name)

theorem within_addHostAccessGroup (c : HostGroupCalls) {o : Option ADUser} (named : Named N o)
    (fqdn : Option String) : Within I (Named N) (addHostAccessGroup cfg c o fqdn) := by
  refine upholds_orElse (upholds_bind (within_reads (reads_hostAccessRule _ _) (Prog.returns_any _))
    (fun rule _ => ?_)) named
  cases rule with
  | none => exact upholds_pure named
  | some r => exact within_addGroupToADUser confines _ _ named _ _

theorem within_addGatewayAccessGroup (c : GatewayGroupCalls) {o : Option ADUser} (named : Named N o)
    (fqdn : Option String) : Within I (Named N) (addGatewayAccessGroup cfg c o fqdn) := by
  refine upholds_orElse (upholds_bind (within_reads (reads_query _ _ _ _) (Prog.returns_any _))
    (fun rule _ => ?_)) named
  cases rule with
  | none => exact upholds_pure named
  | some r => exact within_addGroupToADUser confines _ _ named _ _

theorem within_addWorkstationToADUser (c : WorkstationCalls) (fqdn : String) {u : ADUser}
    (name : N u.sAMAccountName) (au : Option AuthUser) (clientip : Option String) :
    Within I (fun u' => N u'.sAMAccountName) (addWorkstationToADUser cfg c fqdn u au clientip) := by
  rw [addWorkstationToADUser]
  dsimp only
  split
  · exact upholds_pure name
  · refine upholds_orElse (upholds_bind (within_find confines name) (fun dns placed => ?_)) name
    cases hd : dns.head? with
    | none => exact upholds_pure name
    | some dn =>
      have there := placed dn (List.mem_of_mem_head? hd)
      have looks : ∀ (fails : Bool) (read : Directory → Option String),
          Within I (fun _ => True) (Prog.orElse (search fails read) none) :=
        fun _ _ => within_reads (Prog.steps_orElse (reads_search _ _) _) (Prog.returns_any _)
      refine upholds_bind (looks _ _) (fun uws _ => ?_)
      cases given uws with
      | none => exact upholds_pure name
      | some uws =>
        refine upholds_bind (looks _ _) (fun current _ => ?_)
        refine upholds_bind (within_onControllers cfg (fun i => ?_)) (fun _ _ => upholds_pure name)
        exact upholds_bind (within_setWorkstations confines there)
          (fun _ _ => within_audit confines _ _ _ _ _ _ _)

/-! ## Registered Domain Admins -/

/-- A statement and its audit row, where an exception only changes the answer. -/
theorem within_recorded {fails : Bool} {t : Table} {named : List String}
    {write : Database → Database × List Effect}
    (kept : ∀ w : World, I w → I { w with db := (write w.db).1, trace := w.trace ++ (write w.db).2 })
    (fails' : Bool) (event : String) (authUser targetUser clientIp : Option String) :
    Within I (fun _ => True) (Prog.orElse (do
      execute fails t named write
      audit fails' event authUser none targetUser none clientIp
      return true) false) := by
  refine within_of_steps (Prog.steps_orElse (Prog.steps_bind ?_ (fun _ => ?_)) _) (Prog.returns_any _)
  · exact steps_execute confines.logs.refl _ _ _ kept
  · exact Prog.steps_bind (steps_audit confines.logs _ _ _ _ _ _ _) (fun _ => Prog.steps_pure _)

theorem within_makeUserAuthorizedDA (c : AdminCalls) {u : ADUser} (name : N u.sAMAccountName)
    (authu : Option AuthUser) (clientip : Option String) :
    Within I (fun _ => True) (makeUserAuthorizedDA c u authu clientip) :=
  within_recorded confines (fun _ inv => confines.register c.now _ inv name) _ _ _ _ _

theorem within_removeAuthorizedDA (c : AdminCalls) {u : ADUser} (name : N u.sAMAccountName)
    (authu : Option AuthUser) (clientip : Option String) :
    Within I (fun _ => True) (removeAuthorizedDA c u authu clientip) := by
  refine within_recorded confines (fun w inv => ?_) _ _ _ _ _
  rw [List.append_nil]
  exact confines.disable c.now inv name

/-! ## Sessions -/

theorem within_writeSessionToDB (c : WriteCalls) {s : ProconsulSession}
    (name : N s.targetUser.sAMAccountName) (clientaddr : Option String) :
    Within I (fun _ => True) (writeSessionToDB c s clientaddr) :=
  within_of_steps (steps_writeSessionToDB confines.logs (confines.write s name) _ _)
    (Prog.returns_any _)

theorem within_recordSession (c : OpenCalls) {s : ProconsulSession}
    (name : N s.targetUser.sAMAccountName) (addr : Option String) (port : Nat) :
    Within I (SameTarget { s with novncPort := port }) (recordSession c s addr port) := by
  refine within_of_steps (steps_recordSession confines.logs (fun s' same => ?_) addr)
    (returns_recordSession addr)
  refine confines.write s' ?_
  rw [same.sam]
  exact name

theorem within_gated {gs : List Gate} (tokens : ∀ g ∈ gs, g.Steps OnlyTokens)
    {f : Option Page → Run Page} (stopped : ∀ page, f (some page) = pure page)
    (passed : Within I (fun _ => True) (f none)) : Within I (fun _ => True) (inOrder gs >>= f) := by
  have gates : (inOrder gs).Steps (fun w w' => I w → I w') :=
    Prog.steps_mono (fun _ _ h => confines.tokens h) (steps_inOrder tokens)
  refine upholds_bind (within_of_steps gates (Prog.returns_any _)) (fun page _ => ?_)
  cases page with
  | none => exact passed
  | some page =>
    rw [stopped]
    exact upholds_pure trivial

/-! ## The groups of the handlers -/

theorem within_userGroups (c : UserGroupCalls) (au : AuthUser) (target : Option String) {u : ADUser}
    (name : N u.sAMAccountName) (addr : Option String) :
    Within I (Named N) (userGroups cfg c au target u addr) := by
  refine upholds_bind (within_addGroupToADUser confines _ _ (named_some name) _ _)
    (fun u₁ named₁ => ?_)
  refine upholds_bind (within_addHostAccessGroup confines _ named₁ _) (fun u₂ named₂ => ?_)
  refine upholds_bind (within_reads (reads_groupDnsForEppn _ _) (Prog.returns_any _)) (fun dns _ => ?_)
  refine upholds_bind (upholds_foldlM (fun u dn named => ?_) _ named₂) (fun u₃ named₃ => ?_)
  · exact within_addGroupToADUser confines _ _ named _ _
  · exact within_addGatewayAccessGroup confines _ named₃ _

theorem within_undone {c : DeleteCalls} {u : ADUser} (name : N u.sAMAccountName)
    (au : AuthUser) (addr : Option String) (page : Page) : Within I (NamedOr N) (do
      let _ ← deleteAdUser cfg c u (some au) addr
      return .inl page : Run (Page ⊕ Option ADUser)) :=
  upholds_bind (within_deleteAdUser confines c name _ _) (fun _ _ => upholds_pure (namedOr_inl N page))

theorem within_domainGroups (c : DomainCalls) (au : AuthUser) (host : String) {u : ADUser}
    (name : N u.sAMAccountName) (addr : Option String) :
    Within I (NamedOr N) (domainGroups cfg c au host u addr) := by
  refine upholds_bind (within_makeUserAuthorizedDA confines _ name _ _) (fun granted _ => ?_)
  cases granted with
  | false => exact within_undone confines name _ _ _
  | true =>
    refine upholds_bind (within_addGroupToADUser confines _ _ (named_some name) _ _)
      (fun added named => ?_)
    cases added with
    | none => exact within_undone confines name _ _ _
    | some u₁ =>
      exact upholds_bind (within_addGatewayAccessGroup confines _ named _)
        (fun o named => upholds_pure (namedOr_inr named))

theorem within_orUndo (c : DeleteCalls) (au : AuthUser) (addr : Option String) {before : ADUser}
    (name : N before.sAMAccountName) (message : String) {add : Run (Option ADUser)}
    {next : ADUser → Run (Page ⊕ Option ADUser)} (hadd : Within I (Named N) add)
    (hnext : ∀ u, N u.sAMAccountName → Within I (NamedOr N) (next u)) :
    Within I (NamedOr N) (orUndo cfg c au addr before message add next) := by
  refine upholds_bind hadd (fun added named => ?_)
  cases added with
  | none => exact within_undone confines name _ _ _
  | some u => exact hnext u (named u rfl)

theorem within_delegatedGroups (c : DelegatedCalls) (au : AuthUser) (host : String)
    (roleGroup : Option String) {u : ADUser} (name : N u.sAMAccountName) (addr : Option String) :
    Within I (NamedOr N) (delegatedGroups cfg c au host roleGroup u addr) := by
  refine upholds_bind (within_addGroupToADUser confines _ _ (named_some name) _ _)
    (fun u₁ named₁ => ?_)
  refine within_orUndo confines _ _ _ name _ (within_addHostAccessGroup confines _ named₁ _)
    (fun u₂ name₂ => ?_)
  refine within_orUndo confines _ _ _ name₂ _ ?_ (fun u₃ name₃ => ?_)
  · exact upholds_bind (within_reads (reads_groupDnForFQDN _ _ _) (Prog.returns_any _))
      (fun _ _ => within_addGroupToADUser confines _ _ (named_some name₂) _ _)
  refine within_orUndo confines _ _ _ name₃ _
    (within_addGroupToADUser confines _ _ (named_some name₃) _ _) (fun u₄ name₄ => ?_)
  exact upholds_bind (within_addGatewayAccessGroup confines _ (named_some name₄) _)
    (fun o named => upholds_pure (namedOr_inr named))

end Operations

end Confinement
