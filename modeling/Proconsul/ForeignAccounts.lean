import Proconsul.Application
import Proconsul.Confinement
import Proconsul.CheckoutEffects

/-!
# Accounts that are none of the application's business

The application finds the accounts it changes by name and deletes others by DN, with
the rights of an administrator of the whole domain. Which names it can come across is
a matter of the tables: static mappings, stored sessions, checkouts and containers. An
account that none of them names is left exactly as it is, in every run. Names that the
application draws for itself are no exception, since it asks the directory first.

A name is pasted into the search and into the cleanup script as it is. What counts is
therefore not how a name is spelled but what the search for it finds and what the script
with it in its text deletes: the name `Admin*` speaks of the administrator, and a missing
name of an account called `null`. A drawn name can do neither, as long as the account is
filed under its own name where accounts are created and deleted.
-/

namespace ForeignAccounts

open Program Schema Text Surroundings Access Hosts Accounts Sessions Handlers Checkout Cleanup
  Lifecycle Interleaving MainPage DelegatedHosts Application RelyGuarantee
  Confinement

/-- A search for this name does not find the account, and a script for it does not delete it. -/
structure Other (adbase : String) (a : Account) (name : Option String) : Prop where
  unfound : finds (javaString name) a.sam = false
  unaddressed : addressed adbase (javaString name) a.dn = false

/-- Every name on which the application could act. -/
def mentioned (w : World) : List (Option String) :=
  w.db.staticHost.map StaticHostRow.targetuser ++ (w.db.sessions.map SessionRow.samaccountname ++
    (w.db.checkout.map CheckoutRow.aduser ++ w.engine.containers.map (fun c => some c.winuser)))

/-- Where accounts are created and deleted under drawn names, the account is filed under its own name,
if it is there at all. -/
structure Filed (targetbase adbase : String) (a : Account) : Prop where
  created : ∀ name, plainName name = true →
    dnEq a.dn ("cn=" ++ name ++ "," ++ targetbase) = true → nameEq a.sam name = true
  deleted : ∀ name, plainName name = true → addressed adbase name a.dn = true →
    nameEq a.sam name = true

/-- The account is there, shares its DN with no account of another name, and no one speaks of it. -/
structure Foreign (adbase : String) (a : Account) (w : World) : Prop where
  present : a ∈ w.ad.accounts
  alone : ∀ x ∈ w.ad.accounts, dnEq x.dn a.dn = true → nameEq x.sam a.sam = true
  unmentioned : ∀ name ∈ mentioned w, Other adbase a name

/-! ## Steps that keep an account foreign -/

section Steps

variable {adbase : String} {a : Account}

/-- Accounts, tables and containers are where they were. -/
theorem Foreign.of_same {w w' : World} (foreign : Foreign adbase a w)
    (accounts : w'.ad.accounts = w.ad.accounts) (mentions : mentioned w' = mentioned w) :
    Foreign adbase a w' where
  present := by rw [accounts]; exact foreign.present
  alone := by rw [accounts]; exact foreign.alone
  unmentioned := by rw [mentions]; exact foreign.unmentioned

/-- Only other names are new among those that are mentioned. -/
theorem Foreign.of_mentions {w w' : World} (foreign : Foreign adbase a w)
    (accounts : w'.ad.accounts = w.ad.accounts)
    (mentions : ∀ name ∈ mentioned w', name ∈ mentioned w ∨ Other adbase a name) :
    Foreign adbase a w' where
  present := by rw [accounts]; exact foreign.present
  alone := by rw [accounts]; exact foreign.alone
  unmentioned := fun name hn => (mentions name hn).elim (foreign.unmentioned name) id

/-- Nobody else has taken the account's DN, and it has kept its own. -/
theorem Foreign.of_accounts {w : World} (foreign : Foreign adbase a w) {accounts : List Account}
    {effects : List Effect} (present : a ∈ accounts)
    (known : ∀ x ∈ accounts, dnEq x.dn a.dn = true → ∃ y ∈ w.ad.accounts, y.sam = x.sam ∧ y.dn = x.dn) :
    Foreign adbase a { w with
      ad := { w.ad with accounts := accounts }
      trace := w.trace ++ effects } where
  present := present
  alone := by
    intro x hx there
    obtain ⟨y, hy, sam, dn⟩ := known x hx there
    rw [← sam]
    exact foreign.alone y hy (dn ▸ there)
  unmentioned := foreign.unmentioned

theorem known_updateWhere {accounts : List Account} {sel : Account → Bool} {f : Account → Account}
    {x : Account} (hx : x ∈ updateWhere sel f accounts)
    (same : ∀ x, (f x).sam = x.sam ∧ (f x).dn = x.dn) :
    ∃ y ∈ accounts, y.sam = x.sam ∧ y.dn = x.dn := by
  obtain ⟨y, hy, rfl⟩ := List.mem_map.mp hx
  refine ⟨y, hy, ?_⟩
  split
  · exact ⟨(same y).1.symm, (same y).2.symm⟩
  · exact ⟨rfl, rfl⟩

/-- What a search for another name finds is not the account. -/
theorem Foreign.elsewhere {w : World} (foreign : Foreign adbase a w) {name : Option String}
    (other : Other adbase a name) {dn : String} (found : dn ∈ accountDns w.ad name) :
    dnEq a.dn dn = false := by
  obtain ⟨x, hx, rfl⟩ := List.mem_map.mp found
  obtain ⟨mem, named⟩ := mem_found.mp hx
  by_contra same
  rw [Bool.not_eq_false] at same
  rw [finds_congr (foreign.alone x mem (dnEq_symm same)), other.unfound] at named
  cases named

theorem permits_session {s : ProconsulSession} (other : Other adbase a s.targetUser.sAMAccountName) :
    Permits (fun w w' => Foreign adbase a w → Foreign adbase a w') s where
  insert w foreign := by
    refine foreign.of_mentions rfl (fun name hn => ?_)
    simp only [mentioned, List.map_append, List.map_cons, List.map_nil, List.mem_append,
      List.mem_singleton] at hn ⊢
    rcases hn with static | (stored | new) | rest
    · exact .inl (.inl static)
    · exact .inl (.inr (.inl stored))
    · exact .inr (new ▸ other)
    · exact .inl (.inr (.inr rest))
  update w foreign := by
    refine foreign.of_same rfl ?_
    have names : (updateWhere (sameSession s) (refreshRow s) w.db.sessions).map
        SessionRow.samaccountname = w.db.sessions.map SessionRow.samaccountname := by
      refine map_updateWhere (fun r => ?_) _
      rfl
    simp only [mentioned, names]

variable (adbase a)

/-- Other names lead to other DNs, and nothing that is done there touches the account. -/
theorem foreign_confines :
    Confines (Foreign adbase a) (Other adbase a) (fun dn => dnEq a.dn dn = false) where
  logs := ⟨fun _ foreign => foreign, fun _ _ foreign => foreign.of_same rfl rfl⟩
  tokens := by
    rintro w _ ⟨tokens, rfl⟩ foreign
    exact foreign.of_same rfl rfl
  found foreign other there := foreign.elsewhere other there
  add b effects foreign _ elsewhere := by
    refine foreign.of_accounts (List.mem_append_left _ foreign.present) (fun x hx there => ?_)
    rcases List.mem_append.mp hx with old | new
    · exact ⟨x, old, rfl, rfl⟩
    · obtain rfl := List.mem_singleton.mp new
      rw [dnEq_symm there] at elsewhere
      cases elsewhere
  change f effects foreign elsewhere same :=
    foreign.of_accounts (mem_updateWhere_of_not foreign.present elsewhere)
      (fun _ hx _ => known_updateWhere hx same)
  destroy effects foreign elsewhere :=
    foreign.of_accounts (mem_deleteWhere.mpr ⟨foreign.present, elsewhere⟩)
      (fun x hx _ => ⟨x, (mem_deleteWhere.mp hx).1, rfl, rfl⟩)
  register _ _ foreign _ := foreign.of_same rfl rfl
  disable _ foreign _ := foreign.of_same rfl rfl
  write _ other := permits_session other

end Steps

/-- The program leaves the account alone, as long as the others do, and returns values in `V`. -/
abbrev Spares {α : Type} (adbase : String) (a : Account) (V : α → Prop) (p : Run α) : Prop :=
  Within (Foreign adbase a) V p

section Rules

variable {adbase : String} {a : Account}

theorem spares_reads {α : Type} {p : Run α} (hp : p.Reads) : Spares adbase a (fun _ => True) p :=
  within_reads hp (Prog.returns_any p)

/-- Rows of the audit log, tokens, ports and registrations speak of nobody. -/
def Aside (w w' : World) : Prop := w'.ad.accounts = w.ad.accounts ∧ mentioned w' = mentioned w

theorem aside_logs : Logs Aside := ⟨fun _ => ⟨rfl, rfl⟩, fun _ _ => ⟨rfl, rfl⟩⟩

theorem aside_tokens {w w' : World} (h : OnlyTokens w w') : Aside w w' := by
  obtain ⟨tokens, rfl⟩ := h
  exact ⟨rfl, rfl⟩

theorem spares_aside {α : Type} {V : α → Prop} {p : Run α} (hp : p.Steps Aside) (hv : p.Returns V) :
    Spares adbase a V p :=
  within_of_steps (Prog.steps_mono (fun _ _ h foreign => foreign.of_same h.1 h.2) hp) hv

end Rules

/-! ## Names that are drawn or mapped -/

section Operations

variable {adbase : String} {a : Account} {cfg : Config}

theorem other_printed {name : Option String} (other : Other adbase a name) :
    Other adbase a (some (javaString name)) :=
  ⟨other.unfound, other.unaddressed⟩

variable (filed : Filed cfg.targetbase adbase a)

include filed

theorem elsewhere_created {name : String} (plain : plainName name = true)
    (other : Other adbase a (some name)) :
    dnEq a.dn ("cn=" ++ name ++ "," ++ cfg.targetbase) = false := by
  by_contra same
  rw [Bool.not_eq_false] at same
  have mine : finds (javaString (some name)) a.sam = true :=
    finds_of_nameEq (filed.created name plain same)
  rw [other.unfound] at mine
  cases mine

/-- A name that the directory does not know is not the account's. -/
theorem spares_isSamaccountnameAvailable (fails : Bool) {sam : String} (plain : plainName sam = true) :
    Spares adbase a (fun free => free = true → Other adbase a (some sam))
      (isSamaccountnameAvailable fails sam) := by
  rw [isSamaccountnameAvailable]
  split
  · exact upholds_pure (by simp)
  · refine within_search (fun w foreign free => ?_)
    rw [Bool.not_eq_true', List.any_eq_false] at free
    have unnamed : nameEq a.sam sam = false := Bool.eq_false_iff.mpr (free a foreign.present)
    refine ⟨(finds_plainName plain a.sam).trans unnamed, ?_⟩
    by_contra there
    rw [filed.deleted sam plain (Bool.not_eq_false _ ▸ there)] at unnamed
    cases unnamed

theorem spares_getRandomSamaccountname (c : CreateCalls) :
    Spares adbase a (fun name => plainName name = true ∧ Other adbase a (some name))
      (getRandomSamaccountname c) := by
  have names : ∀ tries i, Spares adbase a
      (fun name => plainName name = true ∧ Other adbase a (some name)) (nextName c tries i) := by
    intro tries
    induction tries with
    | zero => exact fun i _ => trivial
    | succ tries ih =>
      intro i
      refine upholds_bind (spares_isSamaccountnameAvailable filed _ (c.drawn i)) (fun free other => ?_)
      cases free with
      | false => exact ih (i + 1)
      | true => exact upholds_pure ⟨c.drawn i, other rfl⟩
  exact names 10 0

theorem spares_createRandomizedADUser (c : CreateCalls) (au : Option AuthUser) :
    Spares adbase a (Named (Other adbase a)) (createRandomizedADUser cfg c au) := by
  refine upholds_bind
    (V := fun name => ∀ n, name = some n → plainName n = true ∧ Other adbase a (some n))
    (upholds_attempt (spares_getRandomSamaccountname filed c) ?_ ?_) (fun name other => ?_)
  · rintro n other _ ⟨⟩
    exact other
  · rintro n ⟨⟩
  · cases name with
    | none => exact upholds_pure (fun _ h => by cases h)
    | some userid =>
      obtain ⟨plain, unspoken⟩ := other userid rfl
      refine within_createAdUser (foreign_confines adbase a) c au unspoken ?_
      rintro _ ⟨⟩
      exact elsewhere_created filed plain unspoken

omit filed

theorem spares_getStaticADUser (notNull : Other adbase a none) (fails : Bool) (c : PasswordCalls)
    (au : AuthUser) (fqdn : Option String) :
    Spares adbase a (fun u => Other adbase a u.sAMAccountName)
      (getStaticADUser cfg fails c au fqdn) := by
  refine upholds_bind (V := Other adbase a)
    (upholds_orElse (within_query (fun w foreign => ?_)) notNull)
    (fun userid other => within_setRandomADPassword (foreign_confines adbase a) c other)
  cases hrow : (w.db.staticHost.filter (fun r =>
    sqlEq r.eppn au.uid && sqlEq r.fqdn fqdn)).getLast? with
  | none => exact notNull
  | some r =>
    have stored : r ∈ w.db.staticHost := (List.mem_filter.mp (List.mem_of_getLast? hrow)).1
    refine foreign.unmentioned r.targetuser ?_
    rw [mentioned, List.mem_append]
    exact .inl (List.mem_map_of_mem stored)

end Operations

/-! ## Sessions -/

section Opening

variable {adbase : String} {a : Account} {cfg : Config}

theorem spares_getVncPortNumber (c : PortCalls) (s : ProconsulSession) :
    Spares adbase a (fun _ => True) (getVncPortNumber c s) :=
  spares_aside (steps_getVncPortNumber aside_logs.refl (fun _ _ => ⟨rfl, rfl⟩) _ _)
    (Prog.returns_any _)

theorem spares_openSession (c : OpenCalls) {s : ProconsulSession}
    (other : Other adbase a s.targetUser.sAMAccountName) (addr : Option String) :
    Spares adbase a (fun s' => Other adbase a s'.targetUser.sAMAccountName) (openSession c s addr) := by
  refine upholds_bind (spares_getVncPortNumber _ _) (fun port _ => ?_)
  refine (within_recordSession (foreign_confines adbase a) c other addr port).weaken (fun s' same => ?_)
  rw [same.sam]
  exact other

theorem winusers_change {e : Engine} {id : Nat} {f : Container → Container}
    (same : ∀ c, (f c).id = c.id) (user : ∀ c, (f c).winuser = c.winuser) :
    (e.change id f same).containers.map (fun c => some c.winuser) =
      e.containers.map (fun c => some c.winuser) := by
  refine map_updateWhere (fun c => ?_) _
  rw [user]

theorem winusers_setStatus (e : Engine) (id : Nat) (status : ContainerStatus) :
    (e.setStatus id status).containers.map (fun c => some c.winuser) =
      e.containers.map (fun c => some c.winuser) :=
  winusers_change (f := fun c => { c with status := status }) (fun _ => rfl) (fun _ => rfl)

theorem spares_start (c : ContainerCalls) (size : Image) {s : ProconsulSession}
    (other : Other adbase a s.targetUser.sAMAccountName) :
    Spares adbase a (fun _ => True) (start cfg c size s) := by
  rw [start]
  split
  · exact fun _ => trivial
  · split
    · exact fun _ => trivial
    · refine upholds_bind (V := fun _ => True) (upholds_atom (fun w foreign => ?_))
        (fun id _ => upholds_atom (fun w foreign => ?_))
      · split
        · exact ⟨foreign, trivial, fun _ _ => trivial⟩
        · refine ⟨foreign.of_mentions rfl (fun name hn => ?_), trivial, fun _ _ => trivial⟩
          simp only [mentioned, Engine.create, List.map_append, List.map_cons, List.map_nil,
            List.mem_append, List.mem_singleton] at hn ⊢
          rcases hn with static | stored | lent | (old | new)
          · exact .inl (.inl static)
          · exact .inl (.inr (.inl stored))
          · exact .inl (.inr (.inr (.inl lent)))
          · exact .inl (.inr (.inr (.inr old)))
          · exact .inr (new ▸ other_printed other)
      · have kept : ∀ status effects, Foreign adbase a { w with
            engine := w.engine.setStatus id status, trace := w.trace ++ effects } := by
          intro status effects
          refine foreign.of_same rfl ?_
          simp only [mentioned, winusers_setStatus]
        split
        · exact ⟨foreign, trivial, fun _ _ => trivial⟩
        · split
          · have failed := kept .startFailed []
            rw [List.append_nil] at failed
            exact ⟨failed, trivial, fun _ _ => trivial⟩
          · exact ⟨kept _ _, trivial, fun _ _ => trivial⟩

theorem spares_launch (c : LaunchCalls) (size : Image) {s : ProconsulSession}
    (other : Other adbase a s.targetUser.sAMAccountName) (addr : Option String) :
    Spares adbase a (fun _ => True) (launch cfg c size s addr) := by
  refine upholds_bind (spares_start _ _ other) (fun _ _ => ?_)
  refine upholds_bind (within_writeSessionToDB (foreign_confines adbase a) _
    (s := { s with status := .connected }) other _) (fun _ _ => ?_)
  refine upholds_bind (V := fun _ => True) ?_ (fun _ _ => upholds_pure trivial)
  rw [awaitReady]
  split
  · exact upholds_pure trivial
  · exact fun _ => trivial

theorem spares_finishSession (c : FinishCalls) (size : Image) (s : ProconsulSession)
    {u : Option ADUser} (others : Named (Other adbase a) u) (addr : Option String) :
    Spares adbase a (fun _ => True) (finishSession cfg c size s u addr) := by
  refine upholds_bind (within_deref others) (fun u other => ?_)
  refine upholds_bind (within_writeSessionToDB (foreign_confines adbase a) _
    (s := { s with targetUser := u }) other _) (fun _ _ => ?_)
  exact spares_launch _ _ other addr

theorem spares_loadSessions (c : SessionCalls) (au : AuthUser) {rows : List (SessionRow × Nat)}
    (named : ∀ r ∈ rows, Other adbase a r.1.samaccountname) {retval : List ProconsulSession}
    (others : ∀ s ∈ retval, Other adbase a s.targetUser.sAMAccountName) :
    Spares adbase a (fun psa => ∀ s ∈ psa, Other adbase a s.targetUser.sAMAccountName)
      (loadSessions cfg c au rows retval) := by
  induction rows generalizing retval with
  | nil => exact upholds_pure others
  | cons r rest ih =>
    have loads : (loadAdUser cfg (c.load r.2) r.1.samaccountname).Returns
        (fun u => u.sAMAccountName = r.1.samaccountname) :=
      Prog.returns_bind (Prog.returns_any _) (fun _ _ => Prog.returns_bind (Prog.returns_any _)
        (fun _ _ => Prog.returns_pure rfl))
    have reads := (reads_loadAdUser cfg (c.load r.2) r.1.samaccountname).steps
      (R := fun w w' => Foreign adbase a w → Foreign adbase a w') (fun _ foreign => foreign)
    refine upholds_bind (within_of_steps reads loads) (fun user sam => ?_)
    cases rowStatus r.1 with
    | none => exact upholds_pure others
    | some status =>
      refine ih (fun x hx => named x (List.mem_cons_of_mem r hx)) (fun s hs => ?_)
      rcases List.mem_append.mp hs with old | new
      · exact others s old
      · obtain rfl := List.mem_singleton.mp new
        have other := named r List.mem_cons_self
        rw [← sam] at other
        exact other

theorem spares_getAvailableSessions (c : SessionCalls) (au : AuthUser) :
    Spares adbase a (fun psa => ∀ s ∈ psa, Other adbase a s.targetUser.sAMAccountName)
      (getAvailableSessions cfg c au) := by
  have stored : Spares adbase a (fun rows => ∀ r ∈ rows, Other adbase a r.samaccountname)
      (query c.rows .sessions ["owner"] (fun db =>
        db.sessions.filter (fun r => sqlEq r.owner au.uid))) := by
    refine within_query (fun w foreign r hr => foreign.unmentioned r.samaccountname ?_)
    rw [mentioned, List.mem_append, List.mem_append]
    exact .inr (.inl (List.mem_map_of_mem (List.mem_filter.mp hr).1))
  refine upholds_bind (V := fun found => ∀ rows, found = some rows →
    ∀ r ∈ rows, Other adbase a r.samaccountname) (upholds_attempt stored ?_ ?_) (fun found named => ?_)
  · rintro rows named _ ⟨⟩
    exact named
  · rintro rows ⟨⟩
  · cases found with
    | none => exact upholds_pure (fun s hs => by cases hs)
    | some rows =>
      refine spares_loadSessions c au (fun r hr => ?_) (fun s hs => by cases hs)
      exact named rows rfl r.1 (List.fst_mem_of_mem_zipIdx hr)

end Opening

/-! ## Requests -/

section Requests

variable {adbase : String} {a : Account} {cfg : Config} (filed : Filed cfg.targetbase adbase a)

theorem spares_handleStaticSessionPost (notNull : Other adbase a none) (c : StaticCalls) (req : Request)
    (form : StaticUserSessionRequest) :
    Spares adbase a (fun _ => True) (handleStaticSessionPost cfg c req form) := by
  refine within_gated (foreign_confines adbase a) (onlyTokens_staticGates c req form) (fun _ => rfl) ?_
  refine upholds_bind (spares_getStaticADUser notNull _ _ _ _) (fun u other => ?_)
  refine upholds_bind (within_deref (V := fun _ => True) (fun _ _ => trivial)) (fun displayName _ => ?_)
  refine upholds_bind (within_deref (V := fun _ => True) (fun _ _ => trivial)) (fun target _ => ?_)
  exact upholds_bind (spares_openSession _ other _) (fun s other' => spares_launch _ _ other' _)

theorem spares_handleReconnectPost (c : ReconnectCalls) (req : Request) (form : ReconnectRequest) :
    Spares adbase a (fun _ => True) (handleReconnectPost cfg c req form) := by
  refine within_gated (foreign_confines adbase a) (onlyTokens_reconnectGates c req form)
    (fun _ => rfl) ?_
  refine upholds_bind (spares_getAvailableSessions _ _) (fun psa others => ?_)
  cases chosen : chooseSession req.authUser form.targetFQDN psa with
  | none => exact upholds_pure trivial
  | some s =>
    have stored : s ∈ psa := (List.mem_filter.mp (List.mem_of_getLast? chosen)).1
    refine upholds_bind (spares_getVncPortNumber _ _) (fun port _ => ?_)
    refine upholds_bind (within_setRandomADPassword (foreign_confines adbase a) _ (others s stored))
      (fun u other => ?_)
    refine upholds_bind (within_writeSessionToDB (foreign_confines adbase a) _ (s := { s with
      novncPort := port, status := .starting, startTime := some c.startTime, targetUser := u,
      vncPassword := some c.vncPassword }) other _) (fun _ _ => ?_)
    exact spares_launch _ _ other _

theorem spares_grouped (c : GroupCalls) (urn : Option String) {u : ADUser}
    (other : Other adbase a u.sAMAccountName) (au : Option AuthUser) (addr : Option String) :
    Spares adbase a (fun u' => Other adbase a u'.sAMAccountName) (do
      return (← addGroupToADUser cfg c urn (some u) au addr).getD u) := by
  refine upholds_bind (within_addGroupToADUser (foreign_confines adbase a) _ _ (named_some other) _ _)
    (fun o others => ?_)
  cases o with
  | none => exact upholds_pure other
  | some v => exact upholds_pure (others v rfl)

theorem spares_assignGroup (c : CheckoutCalls) (au : AuthUser) (addr : Option String) {u : ADUser}
    (other : Other adbase a u.sAMAccountName) (g : String × Nat) :
    Spares adbase a (fun u' => Other adbase a u'.sAMAccountName) (assignGroup cfg c au addr u g) := by
  rw [assignGroup]
  split
  · exact upholds_bind (within_makeUserAuthorizedDA (foreign_confines adbase a) _ other _ _)
      (fun _ _ => spares_grouped _ _ other _ _)
  · exact spares_grouped _ _ other _ _

theorem spares_storeCheckedOutUser (fails : Bool) {row : CheckoutRow}
    (other : Other adbase a row.aduser) :
    Spares adbase a (fun _ => True) (storeCheckedOutUser fails row) := by
  refine within_of_steps (Prog.steps_orElse (Prog.steps_bind (steps_execute (fun _ foreign => foreign)
    _ _ _ (fun w foreign => ?_)) (fun _ => Prog.steps_pure _)) _) (Prog.returns_any _)
  refine foreign.of_mentions rfl (fun name hn => ?_)
  simp only [mentioned, List.map_append, List.map_cons, List.map_nil, List.mem_append,
    List.mem_singleton] at hn ⊢
  rcases hn with static | stored | (lent | new) | launched
  · exact .inl (.inl static)
  · exact .inl (.inr (.inl stored))
  · exact .inl (.inr (.inr (.inl lent)))
  · exact .inr (new ▸ other)
  · exact .inl (.inr (.inr (.inr launched)))

theorem spares_registerCheckout (c : CheckoutCalls) (req : Request) (form : CheckedOutCredRequest)
    {u : ADUser} (other : Other adbase a u.sAMAccountName) :
    Spares adbase a (fun _ => True) (registerCheckout cfg c req form u) := by
  rw [registerCheckout]
  refine upholds_bind (upholds_foldlM (V := fun u => Other adbase a u.sAMAccountName)
    (fun u g other => spares_assignGroup c _ _ other g) _ other) (fun u₁ other₁ => ?_)
  refine upholds_bind (within_addGroupToADUser (foreign_confines adbase a) _ _ (named_some other₁) _ _)
    (fun o others => ?_)
  have other₂ : Other adbase a (o.getD u₁).sAMAccountName := by
    cases o with
    | none => exact other₁
    | some v => exact others v rfl
  refine upholds_bind (within_deref (V := fun _ => True) (fun _ _ => trivial)) (fun limithost _ => ?_)
  refine upholds_bind (upholds_foldlM (V := fun u => Other adbase a u.sAMAccountName)
    (fun u h other => within_addWorkstationToADUser (foreign_confines adbase a) _ _ other _ _) _ other₂)
    (fun u₃ other₃ => ?_)
  exact upholds_bind (spares_storeCheckedOutUser _ other₃)
    (fun _ _ => upholds_pure trivial)

include filed

theorem spares_withAccount (c : CreateCalls) (au : Option AuthUser) {gs : List Gate}
    (tokens : ∀ g ∈ gs, g.Steps OnlyTokens) {body : ADUser → Run Page}
    (hbody : ∀ u, Other adbase a u.sAMAccountName → Spares adbase a (fun _ => True) (body u)) :
    Spares adbase a (fun _ => True) (withAccount cfg c au (inOrder gs) body) := by
  refine within_gated (foreign_confines adbase a) tokens (fun _ => rfl) ?_
  refine upholds_bind (spares_createRandomizedADUser filed c au) (fun o others => ?_)
  exact upholds_bind (within_deref others) hbody

theorem spares_handleUserSessionPost (c : UserCalls) (req : Request) (form : UserSessionRequest) :
    Spares adbase a (fun _ => True) (handleUserSessionPost cfg c req form) := by
  refine spares_withAccount filed _ _ (onlyTokens_userGates c req form) (fun u other => ?_)
  refine upholds_bind (within_deref (V := fun _ => True) (fun _ _ => trivial)) (fun displayName _ => ?_)
  refine upholds_bind (within_deref (V := fun _ => True) (fun _ _ => trivial)) (fun target _ => ?_)
  refine upholds_bind (spares_openSession _ other _) (fun s _ => ?_)
  exact upholds_bind (within_userGroups (foreign_confines adbase a) _ _ _ other _)
    (fun o others => spares_finishSession _ _ _ others _)

theorem spares_handleDomainAdminPost (c : DomainCalls) (req : Request) (form : DomainAdminRequest) :
    Spares adbase a (fun _ => True) (handleDomainAdminPost cfg c req form) := by
  refine upholds_bind (within_deref (V := fun _ => True) (fun _ _ => trivial)) (fun target _ => ?_)
  refine upholds_bind (within_deref (V := fun _ => True) (fun _ _ => trivial)) (fun displayName _ => ?_)
  refine spares_withAccount filed _ _ (onlyTokens_domainGates c req form _) (fun u other => ?_)
  refine upholds_bind (spares_openSession _ other _) (fun s _ => ?_)
  refine upholds_bind (within_domainGroups (foreign_confines adbase a) _ _ _ other _)
    (fun r others => ?_)
  cases r with
  | inl page => exact upholds_pure trivial
  | inr o => exact spares_finishSession _ _ _ (others o rfl) _

theorem spares_handleDelegatedAdminPost (c : DelegatedCalls) (req : Request)
    (form : DelegatedAdminRequest) :
    Spares adbase a (fun _ => True) (handleDelegatedAdminPost cfg c req form) := by
  refine upholds_bind (within_deref (V := fun _ => True) (fun _ _ => trivial)) (fun host _ => ?_)
  refine upholds_bind (within_deref (V := fun _ => True) (fun _ _ => trivial)) (fun displayName _ => ?_)
  refine spares_withAccount filed _ _ (onlyTokens_delegatedGates c req form _) (fun u other => ?_)
  refine upholds_bind (spares_openSession _ other _) (fun s _ => ?_)
  refine upholds_bind (within_delegatedGroups (foreign_confines adbase a) _ _ _ _ other _)
    (fun r others => ?_)
  cases r with
  | inl page => exact upholds_pure trivial
  | inr o => exact spares_finishSession _ _ _ (others o rfl) _

theorem spares_handleCheckOutPost (c : CheckoutCalls) (req : Request)
    (form : CheckedOutCredRequest) :
    Spares adbase a (fun _ => True) (handleCheckOutPost cfg c req form) :=
  spares_withAccount filed _ _ (CheckoutEffects.onlyTokens_checkoutGates cfg c req form)
    (fun _ other => spares_registerCheckout c req form other)

end Requests

/-! ## Buttons, pages, sweep and scripts -/

section Background

variable {adbase : String} {a : Account}

/-- A change of checkouts that leaves their accounts alone. -/
theorem mentioned_checkout {w : World} {sel : CheckoutRow → Bool} {f : CheckoutRow → CheckoutRow}
    (same : ∀ r, (f r).aduser = r.aduser) {effects : List Effect} :
    mentioned { w with
      db := { w.db with checkout := updateWhere sel f w.db.checkout }
      trace := w.trace ++ effects } = mentioned w := by
  have names : (updateWhere sel f w.db.checkout).map CheckoutRow.aduser =
      w.db.checkout.map CheckoutRow.aduser := map_updateWhere same _
  simp only [mentioned, names]

theorem spares_handleUpdateCheckout (c : UpdateCheckoutCalls) (req : Request)
    (form : UpdateCheckoutRequest) :
    Spares adbase a (fun _ => True) (handleUpdateCheckout c req form) := by
  refine within_gated (foreign_confines adbase a) (Rejection.onlyTokens_updateGates c req form)
    (fun _ => rfl) ?_
  have logged : ∀ fails event au host user group ip,
      (audit fails event au host user group ip).Steps Aside :=
    fun _ _ _ _ _ _ _ => steps_audit aside_logs _ _ _ _ _ _ _
  refine spares_aside (V := fun _ => True) ?_ (Prog.returns_any _)
  refine Prog.steps_bind (steps_deref _) (fun expireNow => ?_)
  refine Prog.steps_bind (steps_deref _) (fun extendNow => ?_)
  dsimp only
  split
  · refine Prog.steps_bind (Prog.steps_orElse (Prog.steps_bind (steps_execute aside_logs.refl _ _ _
      (fun w => ⟨rfl, mentioned_checkout (f := fun r => { r with expiretime := some _ })
        (fun _ => rfl)⟩)) (fun _ => Prog.steps_bind (logged _ _ _ _ _ _ _)
        (fun _ => Prog.steps_pure _))) _) (fun _ => Prog.steps_pure _)
  · split
    · refine Prog.steps_bind (Prog.steps_orElse (Prog.steps_bind (steps_execute aside_logs.refl _ _ _
        (fun w => ⟨rfl, mentioned_checkout (f := extendRow) (fun _ => rfl)⟩)) (fun _ => Prog.steps_bind
          (logged _ _ _ _ _ _ _) (fun _ => Prog.steps_pure _))) _) (fun _ => Prog.steps_pure _)
    · exact Prog.steps_pure _

theorem spares_handleRootRequest (cfg : Config) (c : RootCalls) (req : Request) :
    Spares adbase a (fun _ => True) (handleRootRequest cfg c req) := by
  have token : (getSessionCSRFToken c.token req).Steps Aside :=
    Prog.steps_mono (fun _ _ h => aside_tokens h) (onlyTokens_getSessionCSRFToken _ _)
  refine upholds_bind (spares_aside token (Prog.returns_any _)) (fun token _ => ?_)
  cases token with
  | none => exact upholds_pure trivial
  | some token =>
    refine upholds_bind (spares_reads (reads_canUseApp _ _)) (fun allowed _ => ?_)
    split
    · exact upholds_bind (spares_reads (reads_mainView _ _ _ _)) (fun _ _ => upholds_pure trivial)
    · exact upholds_pure trivial

theorem spares_runReading (column : String) (cfg : Config) (c : SweepCalls) (active : Bool)
    (t : Int) : Spares adbase a (fun _ => True) (runReading column cfg c active t) := by
  rw [runReading]
  split
  · exact upholds_pure trivial
  · have expiredRows : Spares adbase a (fun rows => ∀ r ∈ rows, Other adbase a r.aduser)
        (query c.select .checkout ["status", "expiretime"] (fun db =>
          db.checkout.filter (expired t))) := by
      refine within_query (fun w foreign r hr => foreign.unmentioned r.aduser ?_)
      rw [mentioned, List.mem_append, List.mem_append, List.mem_append]
      exact .inr (.inr (.inl (List.mem_map_of_mem (List.mem_filter.mp hr).1)))
    refine upholds_orElse (upholds_bind expiredRows (fun rows others =>
      upholds_forM (fun r hr => ?_))) trivial
    have other : Other adbase a r.1.aduser := others r.1 (List.fst_mem_of_mem_zipIdx hr)
    have owner : (getString .checkout column r.1.owner).Reads := by
      rw [getString]
      split
      · exact Prog.steps_pure _
      · exact Prog.steps_throwing _
    refine upholds_bind (spares_reads owner) (fun owner _ => ?_)
    refine upholds_bind (within_deleteAdUser (foreign_confines adbase a) _ other _ _) (fun _ _ => ?_)
    refine upholds_bind (V := fun _ => True) (spares_aside (steps_execute aside_logs.refl _ _ _
      (fun w => ⟨rfl, mentioned_checkout (f := fun x => { x with status := some "inactive" })
        (fun _ => rfl)⟩)) (Prog.returns_any _)) (fun _ _ => ?_)
    exact upholds_bind (within_removeAuthorizedDA (foreign_confines adbase a) _ other _ _)
      (fun _ _ => upholds_pure trivial)

theorem permits_script (now : Int) {c : Container} (other : Other adbase a (some c.winuser)) :
    PermitsScript (fun w w' => Foreign adbase a w → Foreign adbase a w') adbase now c where
  auditLine _ _ foreign := foreign.of_same rfl rfl
  deleteSessions w foreign := by
    refine foreign.of_mentions rfl (fun name hn => .inl ?_)
    simp only [mentioned, deleteSessions, List.mem_append] at hn ⊢
    rcases hn with static | stored | rest
    · exact .inl static
    · obtain ⟨r, hr, rfl⟩ := List.mem_map.mp stored
      exact .inr (.inl (List.mem_map_of_mem (mem_deleteWhere.mp hr).1))
    · exact .inr (.inr rest)
  disconnectSessions w foreign := by
    refine foreign.of_same rfl ?_
    have names : (disconnectSessions c w).db.sessions.map SessionRow.samaccountname =
        w.db.sessions.map SessionRow.samaccountname := by
      refine map_updateWhere (fun r => ?_) _
      rfl
    simp only [mentioned, names]
    rfl
  deletePort _ foreign := foreign.of_same rfl rfl
  deleteAccount w foreign := by
    exact foreign.of_accounts (kept_deleteAccount foreign.present other.unaddressed)
      (fun x hx _ => ⟨x, (mem_ldapdelete.mp hx).1, rfl, rfl⟩)
  endAdmins _ foreign := foreign.of_same rfl rfl
  removeContainer w foreign := by
    refine foreign.of_mentions rfl (fun name hn => .inl ?_)
    simp only [mentioned, removeContainer, List.mem_append] at hn ⊢
    rcases hn with static | stored | lent | launched
    · exact .inl static
    · exact .inr (.inl stored)
    · exact .inr (.inr (.inl lent))
    · refine .inr (.inr (.inr ?_))
      split at launched
      · exact launched
      · obtain ⟨d, hd, rfl⟩ := List.mem_map.mp launched
        exact List.mem_map_of_mem (mem_deleteWhere.mp hd).1

theorem spares_cleanup (calls : ScriptCalls) :
    Spares adbase a (fun _ => True) (cleanup adbase calls) := by
  have rendered : Spares adbase a (fun todo => ∀ c ∈ todo, Other adbase a (some c.winuser))
      (snapshot calls) := by
    refine upholds_atom (fun w foreign => ⟨foreign.of_same rfl rfl, trivial, ?_⟩)
    rintro _ ⟨⟩ c hc
    refine foreign.unmentioned (some c.winuser) ?_
    rw [mentioned, List.mem_append, List.mem_append, List.mem_append]
    exact .inr (.inr (.inr (List.mem_map_of_mem (mem_stopped hc))))
  refine upholds_bind rendered (fun stopped others => upholds_forM (fun c hc => ?_))
  exact within_of_steps (steps_script (fun _ foreign => foreign)
    (permits_script calls.now (others c hc)))
    (Prog.returns_any _)

theorem foreign_docker {w w' : World} (foreign : Foreign adbase a w) (moved : Docker w w') :
    Foreign adbase a w' := by
  cases moved with
  | @launch c up =>
    refine foreign.of_same rfl ?_
    have names : (w.engine.launch c.id).containers.map (fun c => some c.winuser) =
        w.engine.containers.map (fun c => some c.winuser) :=
      winusers_change (f := fun c => { c with launched := true }) (fun _ => rfl) (fun _ => rfl)
    simp only [mentioned, names]
  | exit up retval =>
    refine foreign.of_same rfl ?_
    simp only [mentioned, winusers_setStatus]

end Background

theorem spares_served {a : Account} {cfg : Config} {adbase : String}
    (filed : Filed cfg.targetbase adbase a) (notNull : Other adbase a none)
    {p : Run Unit} (served : Served cfg adbase p) : Spares adbase a (fun _ => True) p := by
  have answers : ∀ {α : Type} {q : Run α}, Spares adbase a (fun _ => True) q →
      Spares adbase a (fun _ => True) (answered q) :=
    fun h => upholds_bind h (fun _ _ => upholds_pure trivial)
  cases served with
  | session spawned =>
    cases spawned with
    | user c req form => exact answers (spares_handleUserSessionPost filed c req form)
    | static c req form => exact answers (spares_handleStaticSessionPost notNull c req form)
    | domain c req form => exact answers (spares_handleDomainAdminPost filed c req form)
    | delegated c req form => exact answers (spares_handleDelegatedAdminPost filed c req form)
    | reconnect c req form => exact answers (spares_handleReconnectPost c req form)
    | cleanup calls => exact spares_cleanup calls
  | checkOut c req form => exact answers (spares_handleCheckOutPost filed c req form)
  | update c req form => exact answers (spares_handleUpdateCheckout c req form)
  | page c req => exact answers (spares_handleRootRequest cfg c req)
  | hosts fails ou =>
    refine answers (upholds_bind (spares_reads (reads_fqdnsForOu _ _))
      (fun _ _ => upholds_pure trivial))
  | sweep column c active t => exact spares_runReading column cfg c active t

/-- Whatever overlaps and whatever fails: an account stays in the directory as it is when no name in
a table or of a container leads to it, pasted into a search or into a script, and neither does the
text `null`, which is what a missing name is pasted as. -/
theorem foreign_account_untouched {cfg : Config} {adbase : String} {a : Account}
    (filed : Filed cfg.targetbase adbase a) (notNull : Other adbase a none)
    {start : World} (foreign : Foreign adbase a start) {P : Pool World Exn Unit}
    (reach : Reachable (Served cfg adbase) Docker (fun _ _ => True) start P) :
    a ∈ P.shared.ad.accounts :=
  (reachable_kept (I := Foreign adbase a) (R := fun _ _ => True) (fun _ => trivial)
    (fun _ _ _ _ _ => trivial) (fun _ served => spares_served filed notNull served)
    (fun _ _ foreign moved _ => ⟨foreign_docker foreign moved, trivial⟩) foreign reach).1.1.present

/-- An account that does not lie below the bases is not filed there under any name. -/
theorem filed_of_outside {targetbase adbase : String} {a : Account} (whole : isWord adbase = true)
    (outside : ∀ base ∈ [targetbase, adbase], ¬ dnKey base <:+ dnKey a.dn) :
    Filed targetbase adbase a := by
  have elsewhere : ∀ base ∈ [targetbase, adbase], ∀ name, plainName name = true →
      dnEq a.dn ("cn=" ++ name ++ "," ++ base) = false := by
    intro base hbase name plain
    rw [Bool.eq_false_iff]
    intro same
    have below := dnKey_below plain base
    rw [← beq_iff_eq.mp same] at below
    exact outside base hbase below
  constructor
  · intro name plain same
    rw [elsewhere targetbase List.mem_cons_self name plain] at same
    cases same
  · intro name plain there
    rw [addressed_plain plain whole, elsewhere adbase (List.mem_cons_of_mem _ List.mem_cons_self) name
      plain] at there
    cases there

def administrator : Account :=
  ⟨"Administrator", "CN=Administrator,CN=Users,DC=dom,DC=ain", some "root", 512, [], none, none⟩

/-- Pat's site, with an administrator in its directory. -/
def administered : World :=
  { sampleSite with ad := { sampleSite.ad with accounts := [administrator] } }

/-- Pat asks for a session, and while she waits the containers of her site are cleaned up. -/
def patAtWork : Pool World Exn Unit :=
  ⟨administered, [patOpens "ab3de6fgh-eas", cleanup sampleConfig.targetbase (.first 0)]⟩

/-- She is given an account of her own, and the administrator keeps his. -/
theorem administrator_untouched :
    let P := (List.replicate 40 0 ++ List.replicate 3 1).foldl Pool.turn patAtWork
    P.shared.ad.accounts.length = 2 ∧ administrator ∈ P.shared.ad.accounts := by
  have reach : Reachable (Served sampleConfig sampleConfig.targetbase) Docker (fun _ _ => True)
      administered ((List.replicate 40 0 ++ List.replicate 3 1).foldl Pool.turn patAtWork) :=
    reachable_turns (reachable_spawn (reachable_spawn .refl (.session (.user _ _ _)) trivial)
      (.session (.cleanup (.first 0))) trivial) (patAtWork.along_true _)
  have filed : Filed sampleConfig.targetbase sampleConfig.targetbase administrator :=
    filed_of_outside (by decide) (by decide +kernel)
  have notNull : Other sampleConfig.targetbase administrator none := ⟨by decide, by decide +kernel⟩
  have foreign : Foreign sampleConfig.targetbase administrator administered :=
    ⟨List.mem_singleton_self _,
    fun x hx _ => by cases List.mem_singleton.mp hx; decide, fun name hn => by cases hn⟩
  exact ⟨by decide +kernel, foreign_account_untouched filed notNull foreign reach⟩

end ForeignAccounts
