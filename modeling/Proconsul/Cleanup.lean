import Mathlib.Data.List.Sort
import Proconsul.Handlers

/-!
# The cleanup script of docker-gen

docker-gen renders base.tmpl for every container that is not running and
executes the result: one script for each of them, command after command. A
command that fails has no effect and does not end the script. `ldapmdodify` is
no command, so the branch for disconnected sessions does not reach the directory.

The template pastes names into the script as they are, often without quotes. Blanks
then end an argument, and grep takes a dot for any character. What else bash or grep
would interpret is not modelled; `literal` tells the texts without such characters.
The addresses and credentials in the commands are taken to be right.
-/

namespace Cleanup

open Program Schema Text Surroundings Hosts Accounts Sessions Handlers

/-! ## Pasted texts -/

def isBlank (c : Char) : Bool := c = ' ' || c = '\t'

/-- The arguments that bash makes of a text without quotes. -/
def words (text : String) : List String :=
  ((text.toList.splitOnP isBlank).filter (fun word => !word.isEmpty)).map String.ofList

/-- Nothing in the text ends an argument. -/
def isWord (text : String) : Bool := text != "" && text.toList.all (fun c => !isBlank c)

theorem words_of_isWord {text : String} (whole : isWord text = true) : words text = [text] := by
  rw [isWord, Bool.and_eq_true, bne_iff_ne, List.all_eq_true] at whole
  obtain ⟨given, unbroken⟩ := whole
  have unsplit : text.toList.splitOnP isBlank = [text.toList] :=
    List.splitOnP_eq_singleton (fun c hc => by simpa using unbroken c hc)
  have kept : text.toList.isEmpty = false := by
    rw [List.isEmpty_eq_false_iff]
    exact fun empty => given (String.toList_eq_nil_iff.mp empty)
  rw [words, unsplit, List.filter_singleton, kept]
  simp

/-- Characters that are nothing special to bash and, but for blanks and the dot, to grep. -/
def literalChar (c : Char) : Bool :=
  c.isAlphanum || isBlank c || "-_.,:=@+%/".toList.contains c || 160 ≤ c.toNat

/-- The pattern at the beginning of the text. -/
def matchesHere : List Char → List Char → Bool
  | [], _ => true
  | _ :: _, [] => false
  | p :: pattern, c :: text => (p = '.' || p = c) && matchesHere pattern text

/-- `grep` with these arguments: a pattern and no file to read instead of the pipe. -/
def grep (arguments : List String) (line : String) : Bool :=
  match arguments with
  | [pattern] => line.toList.tails.any (matchesHere pattern.toList)
  | _ => false

theorem matchesHere_iff {pattern : List Char} (dotless : ∀ c ∈ pattern, c ≠ '.') (text : List Char) :
    matchesHere pattern text = true ↔ pattern <+: text := by
  induction pattern generalizing text with
  | nil => simp [matchesHere]
  | cons p pattern ih =>
    cases text with
    | nil => simp [matchesHere]
    | cons c text =>
      rw [matchesHere, decide_eq_false (dotless p List.mem_cons_self), Bool.false_or, Bool.and_eq_true,
        decide_eq_true_iff, ih (fun d hd => dotless d (List.mem_cons_of_mem p hd)),
        List.cons_prefix_cons]

theorem unbroken_plain {name : String} (plain : plainName name = true) {c : Char}
    (hc : c ∈ name.toList) : isBlank c = false := by
  rw [isBlank, Bool.or_eq_false_iff, decide_eq_false_iff_not, decide_eq_false_iff_not]
  exact ⟨mem_plainName plain hc (by decide), mem_plainName plain hc (by decide)⟩

/-- A drawn name is searched for as it is. -/
theorem infix_of_grep {name : String} (plain : plainName name = true) {line : String}
    (shown : grep (words name) line = true) : name.toList <:+: line.toList := by
  by_cases empty : name = ""
  · rw [empty]
    exact List.nil_infix
  · have whole : isWord name = true := by
      rw [isWord, Bool.and_eq_true, bne_iff_ne, List.all_eq_true]
      exact ⟨empty, fun c hc => by rw [unbroken_plain plain hc]; rfl⟩
    have dotless : ∀ c ∈ name.toList, c ≠ '.' := fun _ hc => mem_plainName plain hc (by decide)
    rw [words_of_isWord whole, grep, List.any_eq_true] at shown
    obtain ⟨rest, tail, here⟩ := shown
    exact ((matchesHere_iff dotless rest).mp here).isInfix.trans ((List.mem_tails _ _).mp tail).isInfix

/-! ## Processes of other containers -/

def isVnc (image : Image) : Bool := image = .vncLarge || image = .vncDefault

/-- The line that writexclients puts into .Xclients. xfreerdp hides the password in it. -/
def commandLine (c : Container) : String :=
  let size := if c.image = .large then " /size:1920x1200" else ""
  let hidden := String.ofList (c.winpass.toList.map (fun _ => '*'))
  "xfreerdp /cert-ignore /u:" ++ c.winuser ++ " /d:" ++ c.domain ++ " /p:" ++ hidden ++
    match given c.gateway with
    | none => " /network:lan /gdi:sw" ++ size ++ " /gfx /frame-ack:0 /v:" ++ c.rhostname
    | some gateway => size ++ " /v:" ++ c.rhostname ++ " /g:" ++ gateway

/-- The command line after the other columns of `docker top`. -/
def topLine (c : Container) : String := "root 4711 4690 0 12:00 ? 00:00:01 " ++ commandLine c

/-- `docker top | grep xfreerdp | grep WINUSER` finds something, where `docker top` prints these lines
for the clients. -/
def showsUser (line : Container → String) (winuser : String) (c : Container) : Bool :=
  c.status = .running && c.launched && !isVnc c.image && grep (words winuser) (line c)

def running (e : Engine) : List Container := e.containers.filter (fun c => c.status = .running)

/-- The loop over `docker ps`. A container that is gone by then shows nothing. -/
def reconnected (line : Container → String) (winuser : String) : Run Bool := do
  let ids ← Prog.atom (fun w => (.ok ((running w.engine).map Container.id), w))
  ids.foldlM (fun found id => do
    let shown ← Prog.atom (fun w => (.ok ((w.engine.find id).any (showsUser line winuser)), w))
    return found || shown) false

/-! ## The script -/

/-- What the scripts of one rendering meet: the time, the number in a file that an earlier script for
the container has left, the order of the ids, in which the scripts are rendered, and the lines that
`docker top` prints during each of them. -/
structure ScriptCalls where
  now : Int
  left : Nat → Option Nat
  rank : Nat → Nat
  line : Nat → Container → String

/-- No container has had a script before. -/
def ScriptCalls.first (now : Int) (line : Container → String := topLine) : ScriptCalls :=
  ⟨now, fun _ => none, id, fun _ => line⟩

/-- The number that `docker cp` finds in the container. -/
def retval (c : Container) : Option Nat :=
  match c.status with
  | .exited retval => retval
  | _ => none

/-- `[ $retval != 1 -a $retval != 11 -a $retval != 3 ]`. Without a file the
test is a syntax error, hence false. -/
def isLogout : Option Nat → Bool
  | none => false
  | some r => r != 1 && r != 11 && r != 3

def command (f : World → World) : Run Unit := Prog.atom (fun w => (.ok (), f w))

def auditLine (event : String) (c : Container) (w : World) : World :=
  { w with db := { w.db with
      auditLog := w.db.auditLog ++
        [⟨w.clock.stamp, none, some event, some c.winuser, some c.rhostname, none, none⟩] } }

/-- `where samaccountname = 'WINUSER'`. -/
def ofUser (c : Container) (r : SessionRow) : Bool := sqlEq r.samaccountname (some c.winuser)

def deleteSessions (c : Container) (w : World) : World :=
  { w with
    db := { w.db with sessions := deleteWhere (ofUser c) w.db.sessions }
    trace := w.trace ++ [.cleaned c] }

def disconnectSessions (c : Container) (w : World) : World :=
  let disconnect (r : SessionRow) : SessionRow :=
    { r with running := false, connected := false, status := some "disconnected" }
  { w with
    db := { w.db with sessions := updateWhere (ofUser c) disconnect w.db.sessions }
    trace := w.trace ++ [.cleaned c] }

def deletePort (c : Container) (w : World) : World :=
  { w with
    db := { w.db with ports := deleteWhere (fun r => r.portnum == c.display) w.db.ports } }

def userDn (adbase : String) (c : Container) : String := "CN=" ++ c.winuser ++ "," ++ adbase

/-- The script and the creating code write the first attribute type differently. -/
theorem dnEq_userDn (dn adbase winuser : String) :
    dnEq dn ("CN=" ++ winuser ++ "," ++ adbase) = dnEq dn ("cn=" ++ winuser ++ "," ++ adbase) := by
  have type : foldCase "CN=" = foldCase "cn=" := by decide
  have key : dnKey ("CN=" ++ winuser ++ "," ++ adbase) = dnKey ("cn=" ++ winuser ++ "," ++ adbase) :=
    dnKey_congr (by simp only [foldCase_append, type])
  rw [dnEq, dnEq, key]

/-- `ldapdelete` with these names. It ends at the first one that is not there. -/
def ldapdelete : List String → List Account → List Account
  | [], accounts => accounts
  | dn :: names, accounts =>
    if accounts.any (fun a => dnEq a.dn dn) then
      ldapdelete names (deleteWhere (fun a => dnEq a.dn dn) accounts)
    else accounts

def deleteAccount (adbase : String) (c : Container) (w : World) : World :=
  { w with
    ad := { w.ad with accounts := ldapdelete (words (userDn adbase c)) w.ad.accounts }
    trace := w.trace ++ [.cleaned c] }

def endAdmins (now : Int) (c : Container) (w : World) : World :=
  let ended := updateWhere (fun r => sqlEq r.samaccountname (some c.winuser))
    (fun r => { r with disabletime := some now }) w.db.activeDomainAdmins
  { w with db := { w.db with activeDomainAdmins := ended } }

/-- `docker rm`, the end of the script. A running container is not removed. -/
def removeContainer (c : Container) (w : World) : World :=
  { w with
    engine := if (w.engine.find c.id).any (fun d => d.status = .running) then w.engine
      else w.engine.remove c.id
    scripts := w.scripts.erase c.id }

def logoutBranch (adbase : String) (now : Int) (c : Container) : Run Unit := do
  command (auditLine "logout" c)
  command (deleteSessions c)
  command (deletePort c)
  command (deleteAccount adbase c)
  command (endAdmins now c)

def disconnectBranch (c : Container) : Run Unit := do
  command (auditLine "disconnect" c)
  command (disconnectSessions c)
  command (deletePort c)

/-- The script for one container, as it was when the template was rendered. -/
def script (adbase : String) (calls : ScriptCalls) (c : Container) : Run Unit := do
  let recorded ← Prog.atom (fun w => (.ok ((w.engine.find c.id).bind retval), w))
  let shown ← reconnected (calls.line c.id) c.winuser
  if isLogout (if shown then some 3 else recorded.or (calls.left c.id)) then
    logoutBranch adbase calls.now c
  else disconnectBranch c
  command (removeContainer c)

def stopped (calls : ScriptCalls) (w : World) : List Container :=
  (w.engine.containers.filter (fun c => c.status ≠ .running)).insertionSort
    (fun c d => calls.rank c.id ≤ calls.rank d.id)

/-- Rendering the template: the containers that are not running, at one moment. -/
def snapshot (calls : ScriptCalls) : Run (List Container) :=
  Prog.atom (fun w =>
    (.ok (stopped calls w), { w with scripts := w.scripts ++ (stopped calls w).map Container.id }))

def cleanup (adbase : String) (calls : ScriptCalls) : Run Unit := do
  let todo ← snapshot calls
  todo.forM (script adbase calls)

theorem perm_stopped (calls : ScriptCalls) (w : World) :
    (stopped calls w).Perm (w.engine.containers.filter (fun c => c.status ≠ .running)) :=
  List.perm_insertionSort _ _

theorem mem_stopped {calls : ScriptCalls} {w : World} {c : Container} (hc : c ∈ stopped calls w) :
    c ∈ w.engine.containers :=
  (List.mem_filter.mp ((perm_stopped calls w).subset hc)).1

/-! ## What a script can change -/

theorem reads_reconnected (line : Container → String) (winuser : String) :
    (reconnected line winuser).Reads := by
  refine Prog.steps_bind (Prog.steps_atom (fun _ => rfl)) (fun ids => ?_)
  refine Prog.steps_foldlM (fun found id => ?_) _ _
  exact Prog.steps_bind (Prog.steps_atom (fun _ => rfl)) (fun _ => Prog.steps_pure _)

/-- `R` permits each command of the script. -/
structure PermitsScript (R : World → World → Prop) (adbase : String) (now : Int) (c : Container) :
    Prop where
  auditLine : ∀ event w, R w (auditLine event c w)
  deleteSessions : ∀ w, R w (deleteSessions c w)
  disconnectSessions : ∀ w, R w (disconnectSessions c w)
  deletePort : ∀ w, R w (deletePort c w)
  deleteAccount : ∀ w, R w (deleteAccount adbase c w)
  endAdmins : ∀ w, R w (endAdmins now c w)
  removeContainer : ∀ w, R w (removeContainer c w)

theorem steps_script {R : World → World → Prop} (refl : ∀ w, R w w) {adbase : String}
    {calls : ScriptCalls} {c : Container} (permits : PermitsScript R adbase calls.now c) :
    (script adbase calls c).Steps R := by
  have branch : ∀ p : Run Unit, p.Steps R →
      (p >>= fun _ => command (removeContainer c)).Steps R := fun p hp =>
    Prog.steps_bind hp (fun _ => Prog.steps_atom permits.removeContainer)
  refine Prog.steps_bind (Prog.steps_atom refl) (fun recorded => ?_)
  refine Prog.steps_bind ((reads_reconnected _ c.winuser).steps refl) (fun shown => ?_)
  dsimp only
  cases isLogout (if shown then some 3 else recorded.or (calls.left c.id)) with
  | true =>
    refine branch _ (Prog.steps_bind (Prog.steps_atom (permits.auditLine _)) (fun _ => ?_))
    refine Prog.steps_bind (Prog.steps_atom permits.deleteSessions) (fun _ => ?_)
    refine Prog.steps_bind (Prog.steps_atom permits.deletePort) (fun _ => ?_)
    exact Prog.steps_bind (Prog.steps_atom permits.deleteAccount)
      (fun _ => Prog.steps_atom permits.endAdmins)
  | false =>
    refine branch _ (Prog.steps_bind (Prog.steps_atom (permits.auditLine _)) (fun _ => ?_))
    exact Prog.steps_bind (Prog.steps_atom permits.disconnectSessions)
      (fun _ => Prog.steps_atom permits.deletePort)

/-! ## Undisturbed execution -/

theorem run_reconnected (line : Container → String) (winuser : String) (w : World) :
    (reconnected line winuser).run w =
      (.ok (w.engine.containers.any (showsUser line winuser)), w) := by
  have loop : ∀ (cs : List Container) found, (∀ c ∈ cs, c ∈ w.engine.containers) →
      ((cs.map Container.id).foldlM (fun found id => do
        let shown ← Prog.atom (fun w => (.ok ((w.engine.find id).any (showsUser line winuser)), w))
        return found || shown : Bool → Nat → Run Bool) found).run w =
      (.ok (found || cs.any (showsUser line winuser)), w) := by
    intro cs
    induction cs with
    | nil => simp
    | cons c cs ih =>
      intro found hmem
      have here : w.engine.find c.id = some c := Engine.find_of_mem (hmem c List.mem_cons_self)
      rw [List.map_cons, List.foldlM_cons, Prog.run_bind, Prog.run_bind, Prog.run_atom, here]
      rw [List.any_cons, ← Bool.or_assoc]
      exact ih _ (fun d hd => hmem d (List.mem_cons_of_mem c hd))
  have stopped : (running w.engine).any (showsUser line winuser) =
      w.engine.containers.any (showsUser line winuser) := by
    rw [running, List.any_filter]
    congr 1
    funext c
    simp only [showsUser]
    cases decide (c.status = .running) <;> simp
  rw [reconnected, Prog.run_bind, Prog.run_atom]
  have all := loop (running w.engine) false (fun c hc => (List.mem_filter.mp hc).1)
  rw [Bool.false_or, stopped] at all
  exact all

/-- Which branch the script takes when nothing happens in between. -/
def logsOut (calls : ScriptCalls) (c : Container) (w : World) : Bool :=
  isLogout (if w.engine.containers.any (showsUser (calls.line c.id) c.winuser) then some 3
    else ((w.engine.find c.id).bind retval).or (calls.left c.id))

theorem run_script_accounts (adbase : String) (calls : ScriptCalls) (c : Container) (w : World) :
    ((script adbase calls c).run w).2.ad.accounts =
      if logsOut calls c w then ldapdelete (words (userDn adbase c)) w.ad.accounts
      else w.ad.accounts := by
  rw [script, Prog.run_bind, Prog.run_atom]
  dsimp only
  rw [Prog.run_bind_ok (run_reconnected _ c.winuser w), logsOut]
  generalize isLogout _ = out
  cases out <;> rfl

/-! ## What ldapdelete comes to -/

/-- `ldapdelete` comes to an account with this DN. -/
def comesTo (dn : String) : List String → List Account → Bool
  | [], _ => false
  | name :: names, accounts =>
    dnEq dn name || (accounts.any (fun a => dnEq a.dn name) &&
      comesTo dn names (deleteWhere (fun a => dnEq a.dn name) accounts))

theorem mem_ldapdelete {names : List String} {accounts : List Account} {a : Account} :
    a ∈ ldapdelete names accounts ↔ a ∈ accounts ∧ comesTo a.dn names accounts = false := by
  induction names generalizing accounts with
  | nil => simp [ldapdelete, comesTo]
  | cons name names ih =>
    rw [ldapdelete, comesTo]
    cases there : accounts.any (fun a => dnEq a.dn name) with
    | true =>
      rw [if_pos rfl, ih, mem_deleteWhere, Bool.true_and, Bool.or_eq_false_iff]
      tauto
    | false =>
      rw [if_neg Bool.false_ne_true, Bool.false_and, Bool.or_false]
      refine ⟨fun ha => ⟨ha, ?_⟩, And.left⟩
      simpa using List.any_eq_false.mp there a ha

/-- One name, of one word, is the DN to delete. -/
theorem ldapdelete_userDn {adbase : String} {c : Container} (whole : isWord (userDn adbase c) = true)
    (accounts : List Account) : ldapdelete (words (userDn adbase c)) accounts =
      deleteWhere (fun a => dnEq a.dn (userDn adbase c)) accounts := by
  rw [words_of_isWord whole, ldapdelete, ldapdelete]
  cases there : accounts.any (fun a => dnEq a.dn (userDn adbase c)) with
  | true => rfl
  | false =>
    refine (List.filter_eq_self.mpr (fun a ha => ?_)).symm
    simpa using List.any_eq_false.mp there a ha

/-- The DN is among those that the script for a container of the user hands to `ldapdelete`. -/
def addressed (adbase winuser dn : String) : Bool :=
  (words ("CN=" ++ winuser ++ "," ++ adbase)).any (dnEq dn)

/-- What none of the names addresses stays. -/
theorem mem_ldapdelete_of_apart {names : List String} {accounts : List Account} {a : Account}
    (ha : a ∈ accounts) (apart : ∀ name ∈ names, dnEq a.dn name = false) :
    a ∈ ldapdelete names accounts := by
  refine mem_ldapdelete.mpr ⟨ha, ?_⟩
  induction names generalizing accounts with
  | nil => rfl
  | cons name names ih =>
    have elsewhere := apart name List.mem_cons_self
    rw [comesTo, elsewhere, Bool.false_or]
    have kept : a ∈ deleteWhere (fun a => dnEq a.dn name) accounts :=
      mem_deleteWhere.mpr ⟨ha, elsewhere⟩
    rw [ih kept (fun other ho => apart other (List.mem_cons_of_mem name ho)), Bool.and_false]

/-- A DN below the base under a plain name is one argument. -/
theorem isWord_userDn {adbase winuser : String} (plain : plainName winuser = true)
    (whole : isWord adbase = true) : isWord ("CN=" ++ winuser ++ "," ++ adbase) = true := by
  rw [isWord, Bool.and_eq_true, List.all_eq_true] at whole ⊢
  refine ⟨by simp, fun c hc => ?_⟩
  simp only [String.toList_append, List.mem_append] at hc
  rcases hc with ((first | name) | comma) | base
  · revert c
    simp [isBlank]
  · rw [unbroken_plain plain name]
    rfl
  · revert c
    simp [isBlank]
  · exact whole.2 c base

theorem addressed_plain {adbase winuser : String} (plain : plainName winuser = true)
    (whole : isWord adbase = true) (dn : String) :
    addressed adbase winuser dn = dnEq dn ("cn=" ++ winuser ++ "," ++ adbase) := by
  rw [addressed, words_of_isWord (isWord_userDn plain whole), List.any_cons, List.any_nil,
    Bool.or_false, dnEq_userDn]

theorem kept_deleteAccount {adbase : String} {c : Container} {w : World} {a : Account}
    (ha : a ∈ w.ad.accounts) (apart : addressed adbase c.winuser a.dn = false) :
    a ∈ (deleteAccount adbase c w).ad.accounts :=
  mem_ldapdelete_of_apart ha (fun name hn => by simpa using List.any_eq_false.mp apart name hn)

/-! ## Passwords of stopped containers -/

/-- No account of the container's user accepts the container's password. -/
def PasswordDead (c : Container) (w : World) : Prop :=
  ∀ a ∈ w.ad.accounts, nameEq a.sam c.winuser = true → a.password ≠ some c.winpass

/-- Bash and grep take the pasted texts for what they are, up to blanks and dots, and no argument
reads as an option. -/
def literal (adbase : String) (c : Container) : Bool :=
  [c.winuser, c.rhostname, adbase].all (fun text => text.toList.all literalChar) &&
    (words c.winuser ++ words (userDn adbase c)).all (fun word => word.toList.head? != some '-')

/-- The rendered text as bash executes it. With other characters in it, it is some other script. -/
def execution (other : Run Unit) (adbase : String) (calls : ScriptCalls) (c : Container) : Run Unit :=
  if literal adbase c then script adbase calls c else other

/-- Pat's session has been closed with this status. -/
def closed (retval : Nat) : World :=
  let w := ((handleUserSessionPost sampleConfig (.noOutage "ab3de6fgh-eas" "secret" "vncsecret")
    sampleRequest sampleForm).run sampleSite).2
  { w with engine := w.engine.setStatus 0 (.exited (some retval)) }

/-- The container of that session. -/
def closedContainer (retval : Nat) : Container :=
  ⟨0, .default, "vncsecret", "ab3de6fgh-eas", "dom.ain", "secret", "host1.dom.ain", 2, none,
    .exited (some retval), false⟩

end Cleanup
