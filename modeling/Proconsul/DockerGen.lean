import Mathlib.Data.String.Basic
import Mathlib.Data.List.Sort
import Proconsul.Cleanup

/-!
# How docker-gen arrives at the cleanup scripts

On an event docker-gen lists and inspects the containers, evaluates `base.tmpl` for
them and, if the result differs from the file it wrote last, writes and executes it.
Between `DockerContainer` and the script the values of a session pass through a list
of texts `KEY=VALUE`, as Docker keeps it, and a map. The file contains the script of
each container that is not running, in the order of their ids, with the values of its
session. A file that did not change is not executed again, even if a container that was
found before it ran is found again after it stopped.

Template options that `proconsul.cfg` leaves off are not modelled, and nothing is said
about how long the commands of a script take.
-/

namespace DockerGen

open Text Surroundings Cleanup

/-! ## Environments -/

/-- `map[string]string`. -/
abbrev GoMap := String → Option String

/-- `strings.SplitN(entry, "=", 2)`; a missing second part counts as empty. -/
def splitKeyValue (entry : String) : String × String :=
  (String.ofList (entry.toList.takeWhile (· != '=')),
    String.ofList ((entry.toList.dropWhile (· != '=')).drop 1))

def splitKeyValueSlice (entries : List String) : GoMap :=
  entries.foldl (fun env entry => Function.update env (splitKeyValue entry).1 (splitKeyValue entry).2)
    (fun _ => none)

/-- What the template prints for `.Env.KEY`. -/
def printed (env : GoMap) (key : String) : String := (env key).getD "<no value>"

/-! ## Containers -/

/-- What `InspectContainer` answers, as far as the template looks at it. -/
structure ApiContainer where
  id : String
  env : List String
  running : Bool
  deriving DecidableEq, Repr

structure RuntimeContainer where
  id : String
  env : GoMap
  running : Bool

def runtimeContainer (c : ApiContainer) : RuntimeContainer :=
  ⟨c.id, splitKeyValueSlice c.env, c.running⟩

theorem printed_runtime (c : ApiContainer) (key : String) :
    printed (runtimeContainer c).env key = (splitKeyValueSlice c.env key).getD "<no value>" := rfl

theorem id_runtime (c : ApiContainer) : (runtimeContainer c).id = c.id := rfl

/-- A container that cannot be inspected is skipped. -/
def getContainers (fails : String → Bool) (listed : List ApiContainer) : List RuntimeContainer :=
  (listed.filter (fun c => !fails c.id)).map runtimeContainer

/-! ## The template -/

def addTo (c : RuntimeContainer) :
    List (String × List RuntimeContainer) → List (String × List RuntimeContainer)
  | [] => [(c.id, [c])]
  | g :: groups => if g.1 = c.id then (g.1, g.2 ++ [c]) :: groups else g :: addTo c groups

/-- `groupBy $ "ID"`. A `range` visits the entries of a map in the order of their keys. -/
def groupBy (containers : List RuntimeContainer) : List (String × List RuntimeContainer) :=
  (containers.foldl (fun groups c => addTo c groups) []).mergeSort (fun g h => decide (g.1 ≤ h.1))

def mysql (env : String → String) (statement : String) : String :=
  "echo \"" ++ statement ++ "\" | mysql -h 127.0.0.1 -u " ++ env "MYSQLUSER" ++ " --password=" ++
    env "MYSQLPW" ++ " proconsul"

/-- The lines between `else` and `end`. -/
def scriptLines (site env : String → String) (id : String) : List String :=
  ["#!/bin/bash",
   "#",
   "# Shutdown script for Proconsul docker container " ++ id,
   "#",
   "ts=`date +'%Y-%m-%d %H:%M:%S'`",
   "# Get the retval from the container ",
   "#retval=`docker -H 127.0.0.1:2375 start " ++ id ++
     " > /dev/null; docker -H 127.0.0.1:2375 exec " ++ id ++
     " cat /tmp/retval; docker -H 127.0.0.1:2375 stop " ++ id ++ " > /dev/null`",
   "mkdir -p /tmp/" ++ id,
   "docker -H 127.0.0.1:2375 cp " ++ id ++ ":/tmp/retval /tmp/" ++ id,
   "retval=`cat /tmp/" ++ id ++ "/retval`",
   "# Adjust in case of reconnect disconnection",
   "for i in `docker -H 127.0.0.1:2375 ps | grep -v NAMES | awk '\x7bprint $NF\x7d'`; do if docker -H 127.0.0.1:2375 top $i | grep xfreerdp | grep " ++
     env "WINUSER" ++ "; then retval=3; fi; done",
   "# Original if:  if [ $retval == 2 -o $retval == 12 ] ",
   "if [ $retval != 1 -a $retval != 11 -a $retval != 3 ]",
   "then",
   "# cleanup the database",
   "# First, write the audit log",
   mysql env ("insert into audit_log values ('$ts',null,'logout','" ++ env "WINUSER" ++ "','" ++
     env "RHOSTNAME" ++ "',null,null);"),
   "#",
   "# Then, remove the relevant session and port from the DB",
   "#",
   mysql env ("delete from sessions where samaccountname = '" ++ env "WINUSER" ++ "';"),
   mysql env ("delete from ports where portnum = '" ++ env "DISPLAY" ++ "';"),
   "#",
   "# Then remove the dynamic AD user",
   "#",
   "export LDAPTLS_REQCERT=never",
   "ldapdelete -x -H ldaps://" ++ site "ADDOMAIN" ++ ":636 -D " ++ site "ADUSER" ++ " -w '" ++
     site "ADPASS" ++ "' CN=" ++ env "WINUSER" ++ "," ++ site "ADBASE",
   "#",
   "# sleep for five seconds to allow the deletion to propagate before modifying the database",
   "#",
   "# unnecessary since we are not deleting from active_domain_admins now",
   "##sleep 5",
   "## Now we update the ending timestamp",
   mysql env ("update active_domain_admins set disabletime = `date +%s` where samaccountname = '" ++
     env "WINUSER" ++ "';"),
   "#",
   "# And then remove any allowances in active_domaind_admins",
   "# ",
   "# Suppressed to prevent spurious notifications from monitors",
   "#",
   "#" ++ mysql env ("delete from active_domain_admins where samaccountname = '" ++ env "WINUSER" ++
     "';"),
   "else",
   "# Disconnection -- modify database accordingly",
   mysql env ("insert into audit_log values ('$ts',null,'disconnect','" ++ env "WINUSER" ++ "','" ++
     env "RHOSTNAME" ++ "',null,null);"),
   "#",
   "# Change db values",
   "#",
   mysql env ("update sessions set running = '0',connected = '0',status='disconnected' where samaccountname = '" ++
     env "WINUSER" ++ "';"),
   mysql env ("delete from ports where portnum = '" ++ env "DISPLAY" ++ "';"),
   "#",
   "# Modify password",
   "#",
   "userdn=" ++ env "WINUSER" ++ "," ++ site "ADBASE",
   "echo \"dn: $userdn\" > /tmp/" ++ id ++ ".ldif",
   "echo \"changetype: modify\" >> /tmp/" ++ id ++ ".ldif",
   "echo \"replace: unicodePwd\" >> /tmp/" ++ id ++ ".ldif",
   "echo \"unicodePwd: blahblah$RANDOM$RANDOM$RANDOM\" >> /tmp/" ++ id ++ ".ldif",
   "ldapmdodify  -x -H ldaps://" ++ site "ADDOMAIN" ++ ":636 -D " ++ site "ADUSER" ++ " -w '" ++
     site "ADPASS" ++ "' -f /tmp/" ++ id ++ ".ldif",
   "fi",
   "",
   "#",
   "# Delete the docker container outright",
   "#",
   "docker -H 127.0.0.1:2375 rm " ++ id,
   ""]

def text (lines : List String) : List Char := lines.flatMap (fun line => line.toList ++ ['\n'])

def shutdownScript (site : GoMap) (c : RuntimeContainer) : List Char :=
  '\n' :: text (scriptLines (printed site) (printed c.env) c.id)

/-- `base.tmpl`. The four lines at its top only set variables. -/
def executeTemplate (site : GoMap) (containers : List RuntimeContainer) : List Char :=
  text ["", "", "", ""] ++ (groupBy containers).flatMap (fun g =>
    '\n' :: g.2.flatMap (fun c =>
      '\n' :: (if c.running then ['\n'] else shutdownScript site c) ++ ['\n']) ++ ['\n']) ++ ['\n']

/-! ## The file -/

/-- `unicode.IsSpace`. -/
def isSpace (c : Char) : Bool :=
  ['\t', '\n', '\x0b', '\x0c', '\r', ' ', '\u0085', '\u00a0', '\u1680', '\u2028', '\u2029', '\u202f',
    '\u205f', '\u3000'].contains c || ('\u2000' ≤ c && c ≤ '\u200a')

/-- `ReadString('\n')` until the end; the last line may lack its end. -/
def readLines : List Char → List (List Char)
  | [] => []
  | c :: rest =>
    if c = '\n' then [c] :: readLines rest
    else
      match readLines rest with
      | [] => [[c]]
      | line :: lines => (c :: line) :: lines

def removeBlankLines (contents : List Char) : List Char :=
  ((readLines contents).filter (fun line => !line.all isSpace)).flatten

structure Generator where
  dest : List Char
  executed : List (List Char)

/-- `GenerateFile`, with stopped containers included and blank lines removed. -/
def generateFile (site : GoMap) (containers : List RuntimeContainer) : List Char :=
  removeBlankLines (executeTemplate site containers)

/-- A file that did not change is not executed again. -/
def generateFromContainers (site : GoMap) (containers : List RuntimeContainer) (g : Generator) :
    Generator :=
  let contents := generateFile site containers
  if contents = g.dest then g else ⟨contents, g.executed ++ [contents]⟩

/-! ## Reading an environment back -/

theorem takeWhile_key {key : List Char} (h : '=' ∉ key) (rest : List Char) :
    (key ++ '=' :: rest).takeWhile (· != '=') = key := by
  induction key with
  | nil => rfl
  | cons c key ih =>
    obtain ⟨other, inside⟩ := List.ne_and_not_mem_of_not_mem_cons h
    have passes : (c != '=') = true := bne_iff_ne.mpr (Ne.symm other)
    rw [List.cons_append, List.takeWhile_cons, if_pos passes, ih inside]

theorem dropWhile_key {key : List Char} (h : '=' ∉ key) (rest : List Char) :
    (key ++ '=' :: rest).dropWhile (· != '=') = '=' :: rest := by
  induction key with
  | nil => rfl
  | cons c key ih =>
    obtain ⟨other, inside⟩ := List.ne_and_not_mem_of_not_mem_cons h
    have passes : (c != '=') = true := bne_iff_ne.mpr (Ne.symm other)
    rw [List.cons_append, List.dropWhile_cons, if_pos passes, ih inside]

/-- Whatever the value contains, the entry is split behind its key. -/
theorem splitKeyValue_entry {key : String} (h : '=' ∉ key.toList) (value : String) :
    splitKeyValue (key ++ "=" ++ value) = (key, value) := by
  have entry : (key ++ "=" ++ value).toList = key.toList ++ '=' :: value.toList := by simp
  rw [splitKeyValue, entry, takeWhile_key h, dropWhile_key h]
  simp

theorem foldl_other {key : String} {entries : List String}
    (others : ∀ e ∈ entries, (splitKeyValue e).1 ≠ key) (env : GoMap) :
    entries.foldl (fun env e => Function.update env (splitKeyValue e).1 (splitKeyValue e).2) env key =
      env key := by
  induction entries generalizing env with
  | nil => rfl
  | cons e rest ih =>
    rw [List.foldl_cons, ih (fun x hx => others x (List.mem_cons_of_mem e hx))]
    exact Function.update_of_ne (others e List.mem_cons_self).symm _ _

/-- An entry counts unless a later one has the same key. -/
theorem slice_lookup {key value : String} (h : '=' ∉ key.toList) (before : List String)
    {after : List String} (last : ∀ e ∈ after, (splitKeyValue e).1 ≠ key) :
    splitKeyValueSlice (before ++ (key ++ "=" ++ value) :: after) key = some value := by
  rw [splitKeyValueSlice, List.foldl_append, List.foldl_cons, foldl_other last, splitKeyValue_entry h]
  exact Function.update_self _ _ _

/-! ## Blank lines -/

/-- The text is empty or ends with the end of a line. -/
def Terminated (t : List Char) : Prop := t = [] ∨ ∃ front, t = front ++ ['\n']

theorem terminated_append {a b : List Char} (ha : Terminated a) (hb : Terminated b) :
    Terminated (a ++ b) := by
  rcases hb with rfl | ⟨front, rfl⟩
  · rw [List.append_nil]
    exact ha
  · exact .inr ⟨a ++ front, (List.append_assoc _ _ _).symm⟩

theorem terminated_newline : Terminated ['\n'] := .inr ⟨[], rfl⟩

theorem terminated_cons {a : List Char} (ha : Terminated a) : Terminated ('\n' :: a) :=
  terminated_append terminated_newline ha

theorem terminated_flatMap {α : Type} {f : α → List Char} {l : List α}
    (h : ∀ x ∈ l, Terminated (f x)) : Terminated (l.flatMap f) := by
  induction l with
  | nil => exact .inl rfl
  | cons x l ih =>
    exact terminated_append (h x List.mem_cons_self) (ih (fun y hy => h y (List.mem_cons_of_mem x hy)))

theorem terminated_text (lines : List String) : Terminated (text lines) :=
  terminated_flatMap (fun line _ => .inr ⟨line.toList, rfl⟩)

theorem terminated_tail {c : Char} {rest : List Char} (h : Terminated (c :: rest)) :
    Terminated rest := by
  rcases h with none | ⟨front, split⟩
  · cases none
  · cases front with
    | nil =>
      cases split
      exact .inl rfl
    | cons x front =>
      cases split
      exact .inr ⟨front, rfl⟩

theorem readLines_ne_nil {t : List Char} (h : t ≠ []) : readLines t ≠ [] := by
  cases t with
  | nil => exact absurd rfl h
  | cons c rest =>
    rw [readLines]
    split
    · exact List.cons_ne_nil _ _
    · split <;> exact List.cons_ne_nil _ _

theorem readLines_append {a : List Char} (ha : Terminated a) (b : List Char) :
    readLines (a ++ b) = readLines a ++ readLines b := by
  induction a with
  | nil => rfl
  | cons c rest ih =>
    have whole := ih (terminated_tail ha)
    by_cases ends : c = '\n'
    · rw [List.cons_append, readLines, if_pos ends, readLines, if_pos ends, whole]
      rfl
    · -- the line goes on, and the text does not stop here
      have more : rest ≠ [] := by
        rintro rfl
        rcases ha with none | ⟨front, split⟩
        · cases none
        · cases front with
          | nil => exact ends (List.cons.inj split).1
          | cons x front =>
            exact List.append_ne_nil_of_right_ne_nil front (by simp) (List.cons.inj split).2.symm
      rw [List.cons_append, readLines, if_neg ends, readLines, if_neg ends, whole]
      cases here : readLines rest with
      | nil => exact absurd here (readLines_ne_nil more)
      | cons line lines => rfl

theorem removeBlankLines_append {a : List Char} (ha : Terminated a) (b : List Char) :
    removeBlankLines (a ++ b) = removeBlankLines a ++ removeBlankLines b := by
  rw [removeBlankLines, readLines_append ha, List.filter_append, List.flatten_append]
  rfl

theorem removeBlankLines_newline : removeBlankLines ['\n'] = [] := by decide

theorem removeBlankLines_cons (b : List Char) : removeBlankLines ('\n' :: b) = removeBlankLines b := by
  have split := removeBlankLines_append terminated_newline b
  rw [removeBlankLines_newline] at split
  exact split

theorem removeBlankLines_flatMap {α : Type} {f : α → List Char} {l : List α}
    (h : ∀ x ∈ l, Terminated (f x)) :
    removeBlankLines (l.flatMap f) = l.flatMap (fun x => removeBlankLines (f x)) := by
  induction l with
  | nil => rfl
  | cons x l ih =>
    rw [List.flatMap_cons, List.flatMap_cons, removeBlankLines_append (h x List.mem_cons_self),
      ih (fun y hy => h y (List.mem_cons_of_mem x hy))]

/-! ## Groups -/

/-- The containers in the order in which the template visits them. -/
def visited (containers : List RuntimeContainer) : List RuntimeContainer :=
  (groupBy containers).flatMap Prod.snd

theorem perm_addTo (c : RuntimeContainer) (groups : List (String × List RuntimeContainer)) :
    ((addTo c groups).flatMap Prod.snd).Perm (groups.flatMap Prod.snd ++ [c]) := by
  induction groups with
  | nil => exact .refl _
  | cons g groups ih =>
    rw [addTo]
    split
    · simp only [List.flatMap_cons, List.append_assoc]
      exact List.perm_append_comm.append_left g.2
    · simp only [List.flatMap_cons, List.append_assoc]
      exact ih.append_left g.2

theorem perm_visited (containers : List RuntimeContainer) : (visited containers).Perm containers := by
  have groups : ∀ gs : List (String × List RuntimeContainer),
      ((containers.foldl (fun groups c => addTo c groups) gs).flatMap Prod.snd).Perm
        (gs.flatMap Prod.snd ++ containers) := by
    induction containers with
    | nil =>
      intro gs
      rw [List.append_nil]
      exact .refl _
    | cons c rest ih =>
      intro gs
      refine (ih (addTo c gs)).trans (((perm_addTo c gs).append_right rest).trans ?_)
      rw [List.append_assoc]
      exact .refl _
  exact ((List.mergeSort_perm _ _).flatMap_right _).trans (groups [])

/-- A group holds the containers of its key. -/
def Keyed (groups : List (String × List RuntimeContainer)) : Prop := ∀ g ∈ groups, ∀ c ∈ g.2, c.id = g.1

theorem keyed_addTo {c : RuntimeContainer} {groups : List (String × List RuntimeContainer)}
    (keyed : Keyed groups) : Keyed (addTo c groups) := by
  induction groups with
  | nil =>
    intro g hg x hx
    obtain rfl := List.mem_singleton.mp hg
    exact congrArg RuntimeContainer.id (List.mem_singleton.mp hx)
  | cons g groups ih =>
    have later : Keyed groups := fun g' hg' => keyed g' (List.mem_cons_of_mem g hg')
    rw [addTo]
    split
    · rename_i same
      intro g' hg' x hx
      rcases List.mem_cons.mp hg' with rfl | old
      · rcases List.mem_append.mp hx with old | new
        · exact keyed g List.mem_cons_self x old
        · rw [List.mem_singleton.mp new]
          exact same.symm
      · exact later g' old x hx
    · intro g' hg'
      rcases List.mem_cons.mp hg' with rfl | old
      · exact keyed g' List.mem_cons_self
      · exact ih later g' old

theorem keyed_groupBy (containers : List RuntimeContainer) : Keyed (groupBy containers) := by
  have folded : ∀ gs, Keyed gs → Keyed (containers.foldl (fun groups c => addTo c groups) gs) := by
    induction containers with
    | nil => exact fun gs keyed => keyed
    | cons c rest ih => exact fun gs keyed => ih _ (keyed_addTo keyed)
  intro g hg
  exact folded [] (fun g hg => by cases hg) g (List.mem_mergeSort.mp hg)

theorem ascending_mergeSort {α : Type} (key : α → String) (xs : List α) :
    (xs.mergeSort (fun a b => decide (key a ≤ key b))).Pairwise (fun a b => key a ≤ key b) := by
  have trans (a b c : α) (hab : decide (key a ≤ key b) = true) (hbc : decide (key b ≤ key c) = true) :
      decide (key a ≤ key c) = true :=
    decide_eq_true (le_trans (of_decide_eq_true hab) (of_decide_eq_true hbc))
  have total (a b : α) : (decide (key a ≤ key b) || decide (key b ≤ key a)) = true := by
    simpa using le_total (key a) (key b)
  exact (List.pairwise_mergeSort trans total xs).imp of_decide_eq_true

theorem ordered_visited (containers : List RuntimeContainer) :
    (visited containers).Pairwise (fun a b => a.id ≤ b.id) := by
  have keyed := keyed_groupBy containers
  have sorted : (groupBy containers).Pairwise (fun g h => g.1 ≤ h.1) := ascending_mergeSort Prod.fst _
  rw [visited, List.pairwise_flatMap]
  refine ⟨fun g hg => ?_, ?_⟩
  · refine List.pairwise_of_forall_mem_list (fun a ha b hb => ?_)
    rw [keyed g hg a ha, keyed g hg b hb]
  · refine List.Pairwise.imp_of_mem (fun {g h} hg hh le a ha b hb => ?_) sorted
    rw [keyed g hg a ha, keyed h hh b hb]
    exact le

/-! ## What is written -/

theorem terminated_script (site : GoMap) (c : RuntimeContainer) : Terminated (shutdownScript site c) :=
  terminated_cons (terminated_text _)

theorem removeBlankLines_block (site : GoMap) (c : RuntimeContainer) :
    removeBlankLines ('\n' :: (if c.running then ['\n'] else shutdownScript site c) ++ ['\n']) =
      if c.running then [] else removeBlankLines (shutdownScript site c) := by
  rw [List.cons_append, removeBlankLines_cons]
  split
  · decide
  · rw [removeBlankLines_append (terminated_script site c), removeBlankLines_newline, List.append_nil]

/-- Of the template remain the scripts. -/
theorem generateFile_eq (site : GoMap) (containers : List RuntimeContainer) :
    generateFile site containers = ((visited containers).filter (fun c => !c.running)).flatMap
      (fun c => removeBlankLines (shutdownScript site c)) := by
  have blocks : ∀ cs : List RuntimeContainer, ∀ c ∈ cs, Terminated
      ('\n' :: (if c.running then ['\n'] else shutdownScript site c) ++ ['\n']) :=
    fun cs c _ => .inr ⟨_, rfl⟩
  have groups : ∀ g ∈ groupBy containers, Terminated ('\n' :: g.2.flatMap (fun c =>
      '\n' :: (if c.running then ['\n'] else shutdownScript site c) ++ ['\n']) ++ ['\n']) :=
    fun g _ => .inr ⟨_, rfl⟩
  have header : removeBlankLines (text ["", "", "", ""]) = [] := by decide
  rw [generateFile, executeTemplate, removeBlankLines_append (terminated_append (terminated_text _)
    (terminated_flatMap groups)), removeBlankLines_newline, List.append_nil,
    removeBlankLines_append (terminated_text _), header, List.nil_append,
    removeBlankLines_flatMap groups,
    visited, List.filter_flatMap, List.flatMap_assoc]
  refine List.flatMap_congr (fun g _ => ?_)
  rw [List.cons_append, removeBlankLines_cons,
    removeBlankLines_append (terminated_flatMap (blocks g.2)),
    removeBlankLines_newline, List.append_nil, removeBlankLines_flatMap (blocks g.2)]
  simp only [removeBlankLines_block]
  induction g.2 with
  | nil => rfl
  | cons c cs ih =>
    rw [List.flatMap_cons, ih, List.filter_cons]
    cases c.running <;> rfl

/-! ## Containers of sessions -/

/-- Properties that only containers are given. -/
structure Properties where
  novncHome : String
  pcdbUser : String
  pcdbPassword : String

/-- What `DockerContainer` adds to the environment, in that order. -/
def entries (cfg : Config) (p : Properties) (c : Container) : List (String × String) :=
  [("VNCPASSWORD", c.vncpassword), ("WINUSER", c.winuser), ("DOMAIN", c.domain),
   ("WINPASS", c.winpass), ("RHOSTNAME", c.rhostname), ("PORTNUM", toString c.portnum),
   ("DISPLAY", toString c.display), ("EXT", toString c.ext), ("HOME", p.novncHome),
   ("HOSTNAME", cfg.novncHostname), ("MYSQLUSER", p.pcdbUser), ("MYSQLPW", p.pcdbPassword)] ++
    (c.gateway.map (fun gateway => ("GATEWAY", gateway))).toList

def environment (cfg : Config) (p : Properties) (c : Container) : List String :=
  (entries cfg p c).map (fun e => e.1 ++ "=" ++ e.2)

def keys : List String :=
  ["VNCPASSWORD", "WINUSER", "DOMAIN", "WINPASS", "RHOSTNAME", "PORTNUM", "DISPLAY", "EXT", "HOME",
   "HOSTNAME", "MYSQLUSER", "MYSQLPW", "GATEWAY"]

/-- Variables that the image sets and the session does not. -/
def Inherited (more : List String) : Prop := ∀ e ∈ more, (splitKeyValue e).1 ∉ keys

theorem keys_entries (cfg : Config) (p : Properties) (c : Container) :
    ((entries cfg p c).map Prod.fst).Sublist keys := by
  rw [entries]
  cases c.gateway with
  | none => exact List.sublist_append_left (keys.take 12) ["GATEWAY"]
  | some gateway => exact .refl _

/-- The map holds what was added, value for value. -/
theorem environment_lookup {cfg : Config} {p : Properties} {c : Container} {key value : String}
    (added : (key, value) ∈ entries cfg p c) {more : List String} (inherited : Inherited more) :
    splitKeyValueSlice (environment cfg p c ++ more) key = some value := by
  have among := keys_entries cfg p c
  have distinct : ((entries cfg p c).map Prod.fst).Nodup := among.nodup (by decide)
  have plain : ∀ k ∈ keys, '=' ∉ k.toList := by decide
  have mine : ∀ e ∈ entries cfg p c, e.1 ∈ keys := fun e he => among.subset (List.mem_map_of_mem he)
  rw [environment]
  obtain ⟨before, after, split⟩ := List.append_of_mem added
  rw [split] at mine distinct ⊢
  rw [List.map_append, List.map_cons, List.append_assoc, List.cons_append]
  have known : key ∈ keys := mine (key, value) (List.mem_append_right _ List.mem_cons_self)
  refine slice_lookup (plain key known) _ (fun e he => ?_)
  rcases List.mem_append.mp he with own | other
  · obtain ⟨e', later, rfl⟩ := List.mem_map.mp own
    rw [splitKeyValue_entry (plain _
      (mine e' (List.mem_append_right _ (List.mem_cons_of_mem _ later))))]
    rw [List.map_append, List.map_cons, List.nodup_append] at distinct
    intro same
    have again : e'.1 ∈ after.map Prod.fst := List.mem_map_of_mem later
    exact (List.nodup_cons.mp distinct.2.1).1 (same ▸ again)
  · rintro rfl
    exact inherited e other known

/-- What the template asks a container for. -/
def valueOf (p : Properties) (c : Container) (key : String) : String :=
  if key = "WINUSER" then c.winuser
  else if key = "RHOSTNAME" then c.rhostname
  else if key = "DISPLAY" then toString c.display
  else if key = "MYSQLUSER" then p.pcdbUser
  else p.pcdbPassword

theorem scriptLines_congr {site env env' : String → String} {id : String}
    (same : ∀ key ∈ ["WINUSER", "RHOSTNAME", "DISPLAY", "MYSQLUSER", "MYSQLPW"], env key = env' key) :
    scriptLines site env id = scriptLines site env' id := by
  have winuser := same "WINUSER" (by decide)
  have rhostname := same "RHOSTNAME" (by decide)
  have display := same "DISPLAY" (by decide)
  have user := same "MYSQLUSER" (by decide)
  have password := same "MYSQLPW" (by decide)
  simp only [scriptLines, mysql, winuser, rhostname, display, user, password]

/-- The script with the values of the session. -/
def sessionScript (site : GoMap) (p : Properties) (id : String) (c : Container) : List Char :=
  '\n' :: text (scriptLines (printed site) (valueOf p c) id)

/-- How Docker names a container and what its image adds. -/
structure Naming where
  hex : Nat → String
  more : Nat → List String
  inherited : ∀ i, Inherited (more i)

def inspected (cfg : Config) (p : Properties) (n : Naming) (c : Container) : ApiContainer where
  id := n.hex c.id
  env := environment cfg p c ++ n.more c.id
  running := c.status = .running

theorem script_inspected (site : GoMap) (cfg : Config) (p : Properties) (n : Naming) (c : Container) :
    shutdownScript site (runtimeContainer (inspected cfg p n c)) =
    sessionScript site p (n.hex c.id) c := by
  have value : ∀ key value, (key, value) ∈ entries cfg p c →
      printed (runtimeContainer (inspected cfg p n c)).env key = value := by
    intro key value added
    rw [printed_runtime, inspected, environment_lookup added (n.inherited c.id)]
    rfl
  have lines : scriptLines (printed site) (printed (runtimeContainer (inspected cfg p n c)).env)
      (n.hex c.id) = scriptLines (printed site) (valueOf p c) (n.hex c.id) := by
    refine scriptLines_congr (fun key hkey => value key _ ?_)
    simp only [List.mem_cons, List.not_mem_nil, or_false] at hkey
    rcases hkey with rfl | rfl | rfl | rfl | rfl <;> simp [entries, valueOf]
  rw [sessionScript, ← lines, shutdownScript, id_runtime, inspected]

/-- The containers that an event finds; the second part says which cannot be inspected. -/
def found (cfg : Config) (p : Properties) (n : Naming) (e : World × (String → Bool)) :
    List RuntimeContainer :=
  getContainers e.2 (e.1.engine.containers.map (inspected cfg p n))

/-- Docker gives no two containers the same name. -/
def Named (n : Naming) (w : World) : Prop :=
  ∀ c ∈ w.engine.containers, ∀ d ∈ w.engine.containers, n.hex c.id = n.hex d.id → c.id = d.id

def due (n : Naming) (e : World × (String → Bool)) : List Container :=
  e.1.engine.containers.filter (fun c => c.status ≠ .running && !e.2 (n.hex c.id))

theorem found_due (cfg : Config) (p : Properties) (n : Naming) (e : World × (String → Bool)) :
    (found cfg p n e).filter (fun c => !c.running) =
      (due n e).map (fun c => runtimeContainer (inspected cfg p n c)) := by
  rw [found, getContainers, due, List.filter_map, List.filter_map, List.filter_map, List.filter_filter,
    List.map_map]
  refine congrArg _ (List.filter_congr (fun c _ => ?_))
  simp [runtimeContainer, inspected]

/-- Whatever runs on the site, the file consists of one script for each container that is not running
and can be inspected, in the order of their ids, with the values of its session. -/
theorem generated_for_stopped (site : GoMap) (cfg : Config) (p : Properties) (n : Naming)
    (e : World × (String → Bool)) (named : Named n e.1) :
    generateFile site (found cfg p n e) =
      ((due n e).mergeSort (fun c d => decide (n.hex c.id ≤ n.hex d.id))).flatMap
        (fun c => removeBlankLines (sessionScript site p (n.hex c.id) c)) := by
  have order : (visited (found cfg p n e)).filter (fun c => !c.running) =
      ((due n e).mergeSort (fun c d => decide (n.hex c.id ≤ n.hex d.id))).map
        (fun c => runtimeContainer (inspected cfg p n c)) := by
    have merged := ascending_mergeSort (fun c => n.hex c.id) (due n e)
    have perm : ((visited (found cfg p n e)).filter (fun c => !c.running)).Perm
        (((due n e).mergeSort (fun c d => decide (n.hex c.id ≤ n.hex d.id))).map
          (fun c => runtimeContainer (inspected cfg p n c))) := by
      refine ((perm_visited _).filter _).trans ?_
      rw [found_due]
      exact ((List.mergeSort_perm _ _).map _).symm
    refine List.Perm.eq_of_pairwise ?_ ((ordered_visited _).filter _) ?_ perm
    · -- two containers of one name are one container
      intro a b ha hb hab hba
      obtain ⟨c, hc, rfl⟩ := List.mem_map.mp (perm.subset ha)
      obtain ⟨d, hd, rfl⟩ := List.mem_map.mp hb
      have hc' := (List.mem_filter.mp (List.mem_mergeSort.mp hc)).1
      have hd' := (List.mem_filter.mp (List.mem_mergeSort.mp hd)).1
      rw [Engine.eq_of_id hc' hd' (named c hc' d hd' (le_antisymm hab hba))]
    · exact List.pairwise_map.mpr merged
  rw [generateFile_eq, order, List.flatMap_map]
  simp only [script_inspected]

/-- The containers that `cleanup` takes are those that are due when every container can be inspected,
and it takes them in the order of the file, if it ranks them by their ids. -/
theorem snapshot_due {n : Naming} {w : World} (named : Named n w) {calls : ScriptCalls}
    (ranked : ∀ i j, calls.rank i ≤ calls.rank j ↔ n.hex i ≤ n.hex j) :
    ((snapshot calls).run w).1 =
      .ok ((due n (w, fun _ => false)).mergeSort (fun c d => decide (n.hex c.id ≤ n.hex d.id))) := by
  have same : due n (w, fun _ => false) = w.engine.containers.filter (fun c => c.status ≠ .running) :=
    List.filter_congr (fun c _ => by simp)
  have byHex : stopped calls w = (due n (w, fun _ => false)).insertionSort
      (fun c d => n.hex c.id ≤ n.hex d.id) := by
    rw [stopped, same]
    simp only [ranked]
  have perm := (List.mergeSort_perm (due n (w, fun _ => false))
    (fun c d => decide (n.hex c.id ≤ n.hex d.id))).trans
      (List.perm_insertionSort (fun c d => n.hex c.id ≤ n.hex d.id) (due n (w, fun _ => false))).symm
  have total : Std.Total (fun c d : Container => n.hex c.id ≤ n.hex d.id) :=
    ⟨fun c d => le_total (n.hex c.id) (n.hex d.id)⟩
  have trans : IsTrans Container (fun c d => n.hex c.id ≤ n.hex d.id) := ⟨fun _ _ _ => le_trans⟩
  have sorted : ((due n (w, fun _ => false)).insertionSort
      (fun c d => n.hex c.id ≤ n.hex d.id)).Pairwise
      (fun c d => n.hex c.id ≤ n.hex d.id) := List.pairwise_insertionSort _ _
  have merged := ascending_mergeSort (fun c : Container => n.hex c.id) (due n (w, fun _ => false))
  rw [snapshot, Program.Prog.run_atom, byHex]
  refine congrArg Except.ok (perm.eq_of_pairwise ?_ merged sorted).symm
  intro a b ha hb hab hba
  have ha' := (List.mem_filter.mp (List.mem_mergeSort.mp ha)).1
  have hb' := (List.mem_filter.mp ((List.mem_insertionSort _).mp hb)).1
  exact Engine.eq_of_id ha' hb' (named a ha' b hb' (le_antisymm hab hba))

def sampleNaming : Naming where
  hex i := String.ofList (List.replicate (9 - i) 'a')
  more _ := ["PATH=/usr/bin"]
  inherited _ := by unfold Inherited; decide

def sampleContainer (winuser : String) : Container where
  id := 0
  image := .default
  vncpassword := "vncsecret"
  winuser := winuser
  domain := "dom.ain"
  winpass := "p=w"
  rhostname := "host1.dom.ain"
  display := 2
  gateway := none
  status := .created
  launched := false

/-- Two containers were started, and both have stopped. -/
def stoppedSite : World :=
  { World.empty with
    engine := (((Engine.empty.create (fun _ => sampleContainer "ab3de6fgh-eas")).create
      (fun _ => sampleContainer "zz3de6fgh-eas")).setStatus 0 (.exited (some 2))).setStatus 1
        (.exited none) }

theorem two_scripts_generated :
    (due sampleNaming (stoppedSite, fun _ => false)).map Container.winuser =
        ["ab3de6fgh-eas", "zz3de6fgh-eas"] ∧
      generateFile (fun _ => none) (found sampleConfig ⟨"/home/novnc", "pc", "pw=1"⟩ sampleNaming
          (stoppedSite, fun _ => false)) =
        ((due sampleNaming (stoppedSite, fun _ => false)).mergeSort
          (fun c d => decide (sampleNaming.hex c.id ≤ sampleNaming.hex d.id))).flatMap
          (fun c => removeBlankLines (sessionScript (fun _ => none) ⟨"/home/novnc", "pc", "pw=1"⟩
            (sampleNaming.hex c.id) c)) :=
  ⟨by decide +kernel, generated_for_stopped _ _ _ _ _ (by unfold Named; decide)⟩

/-! ## Event after event -/

section Watching

variable (site : GoMap) (cfg : Config) (p : Properties) (n : Naming)

/-- What the events leave behind, from an absent file on. -/
def watch (events : List (World × (String → Bool))) : Generator :=
  events.foldl (fun g e => generateFromContainers site (found cfg p n e) g) ⟨[], []⟩

/-- The file was executed at one of the events. At every event since, the same file was generated
again, and nothing was executed. -/
def LastExecuted (events : List (World × (String → Bool))) (file : List Char) : Prop :=
  ∃ before x since, events = before ++ x :: since ∧
    (watch site cfg p n (before ++ [x])).executed = (watch site cfg p n before).executed ++ [file] ∧
    (∀ e ∈ x :: since, generateFile site (found cfg p n e) = file) ∧
    (watch site cfg p n events).executed = (watch site cfg p n (before ++ [x])).executed

variable {site cfg p n}

theorem watch_snoc (past : List (World × (String → Bool))) (e : World × (String → Bool)) :
    watch site cfg p n (past ++ [e]) =
      generateFromContainers site (found cfg p n e) (watch site cfg p n past) := by
  rw [watch, List.foldl_append]
  rfl

theorem dest_generate (containers : List RuntimeContainer) (g : Generator) :
    (generateFromContainers site containers g).dest = generateFile site containers := by
  rw [generateFromContainers]
  split
  · rename_i same
    exact same.symm
  · rfl

theorem executed_generate (containers : List RuntimeContainer) (g : Generator) :
    (generateFromContainers site containers g).executed =
      if generateFile site containers = g.dest then g.executed
      else g.executed ++ [generateFile site containers] := by
  rw [generateFromContainers]
  split <;> rfl

/-- What was executed stays executed. -/
theorem executed_grows (past later : List (World × (String → Bool))) :
    (watch site cfg p n past).executed <+: (watch site cfg p n (past ++ later)).executed := by
  induction later using List.reverseRecOn with
  | nil => rw [List.append_nil]
  | append_singleton later e ih =>
    refine ih.trans ?_
    rw [← List.append_assoc, watch_snoc, executed_generate]
    split
    · exact List.prefix_rfl
    · exact List.prefix_append _ _

theorem executed_generated (events : List (World × (String → Bool))) :
    ∀ file ∈ (watch site cfg p n events).executed,
      ∃ e ∈ events, file = generateFile site (found cfg p n e) := by
  induction events using List.reverseRecOn with
  | nil =>
    intro file hf
    cases hf
  | append_singleton past e ih =>
    intro file hf
    rw [watch_snoc, executed_generate] at hf
    have old : file ∈ (watch site cfg p n past).executed →
        ∃ x ∈ past ++ [e], file = generateFile site (found cfg p n x) := by
      intro before
      obtain ⟨x, hx, same⟩ := ih file before
      exact ⟨x, List.mem_append_left _ hx, same⟩
    split at hf
    · exact old hf
    · rcases List.mem_append.mp hf with before | now
      · exact old before
      · exact ⟨e, by simp, List.mem_singleton.mp now⟩

/-- A file with something in it is executed at the event, or it is the one executed last. -/
theorem lastExecuted_snoc (past : List (World × (String → Bool))) (e : World × (String → Bool))
    (full : generateFile site (found cfg p n e) ≠ []) :
    LastExecuted site cfg p n (past ++ [e]) (generateFile site (found cfg p n e)) := by
  induction past using List.reverseRecOn generalizing e with
  | nil =>
    refine ⟨[], e, [], rfl, ?_, by simp, rfl⟩
    have absent : (watch site cfg p n []).dest = [] := rfl
    rw [watch_snoc, executed_generate, absent, if_neg full]
  | append_singleton past e' ih =>
    have known : (watch site cfg p n (past ++ [e'])).dest = generateFile site (found cfg p n e') := by
      rw [watch_snoc, dest_generate]
    have now : (watch site cfg p n (past ++ [e'] ++ [e])).executed =
        if generateFile site (found cfg p n e) = generateFile site (found cfg p n e') then
          (watch site cfg p n (past ++ [e'])).executed
        else (watch site cfg p n (past ++ [e'])).executed ++ [generateFile site (found cfg p n e)] := by
      rw [watch_snoc, executed_generate, known]
    by_cases same : generateFile site (found cfg p n e) = generateFile site (found cfg p n e')
    · -- nothing is executed at this event, and the last one is the last one still
      rw [if_pos same] at now
      obtain ⟨before, x, since, split, ran, unchanged, last⟩ := ih e' (same ▸ full)
      rw [same]
      refine ⟨before, x, since ++ [e], by rw [split]; simp, ran, fun y hy => ?_, now.trans last⟩
      rcases List.mem_append.mp (show y ∈ (x :: since) ++ [e] from hy) with earlier | here
      · exact unchanged y earlier
      · obtain rfl := List.mem_singleton.mp here
        exact same
    · rw [if_neg same] at now
      exact ⟨past ++ [e'], e, [], rfl, now, by simp, rfl⟩

end Watching

theorem script_ne_nil (site : GoMap) (p : Properties) (id : String) (c : Container) :
    removeBlankLines (sessionScript site p id c) ≠ [] := by
  have split : ∃ rest, sessionScript site p id c = '\n' :: (text ["#!/bin/bash"] ++ rest) :=
    ⟨text (scriptLines (printed site) (valueOf p c) id).tail, rfl⟩
  obtain ⟨rest, same⟩ := split
  have shebang : removeBlankLines (text ["#!/bin/bash"]) ≠ [] := by decide
  rw [same, removeBlankLines_cons, removeBlankLines_append (terminated_text _)]
  exact List.append_ne_nil_of_left_ne_nil shebang _

theorem script_in_file (site : GoMap) (cfg : Config) (p : Properties) {n : Naming}
    {e : World × (String → Bool)} {c : Container} (hc : c ∈ due n e) :
    removeBlankLines (sessionScript site p (n.hex c.id) c) <:+:
      generateFile site (found cfg p n e) := by
  have there : runtimeContainer (inspected cfg p n c) ∈
      (visited (found cfg p n e)).filter (fun c => !c.running) := by
    refine ((perm_visited _).filter _).symm.subset ?_
    rw [found_due]
    exact List.mem_map_of_mem hc
  obtain ⟨before, after, split⟩ := List.append_of_mem there
  rw [generateFile_eq, split, List.flatMap_append, List.flatMap_cons, script_inspected]
  exact ⟨_, _, List.append_assoc _ _ _⟩

/-- From an absent file on, through any sequence of events: what is executed was generated at one of
them. When an event finds a container stopped, its script is part of the file, and this is executed
at the event, or else it is the file that was executed last, unchanged at every event since. -/
theorem stopped_containers_cleaned (site : GoMap) (cfg : Config) (p : Properties) (n : Naming)
    (events : List (World × (String → Bool))) :
    (∀ file ∈ (watch site cfg p n events).executed,
        ∃ e ∈ events, file = generateFile site (found cfg p n e)) ∧
      ∀ past e later, events = past ++ e :: later → ∀ c ∈ due n e,
        removeBlankLines (sessionScript site p (n.hex c.id) c) <:+:
          generateFile site (found cfg p n e) ∧
        LastExecuted site cfg p n (past ++ [e]) (generateFile site (found cfg p n e)) ∧
        (watch site cfg p n (past ++ [e])).executed <+: (watch site cfg p n events).executed := by
  refine ⟨executed_generated events, ?_⟩
  rintro past e later rfl c hc
  have inside := script_in_file site cfg p hc
  have full : generateFile site (found cfg p n e) ≠ [] := by
    intro empty
    rw [empty] at inside
    exact script_ne_nil site p _ c (List.infix_nil.mp inside)
  have whole : past ++ e :: later = (past ++ [e]) ++ later := by simp
  refine ⟨inside, lastExecuted_snoc past e full, ?_⟩
  rw [whole]
  exact executed_grows (past ++ [e]) later

end DockerGen
