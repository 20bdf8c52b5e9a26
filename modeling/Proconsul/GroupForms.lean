import Proconsul.Listings

/-!
# Removing group rules through the pages that list them

`generateWindowsUsers` and `generateHostGatewayDeatils` with their templates
`windows_users.vm` and `gateway.vm`: the groups that dynamic users are given for who
they are, and the groups and gateways that they are given for where they go. The
removal branches of the two POST handlers are compared with the rows that were
flagged. As on the page for hosts a missing value is printed as the template refers
to it, and a row without one of its values is not found again.

The lengths that the templates compute for their input fields are left out.
-/

namespace GroupForms

open Program Schema Text Surroundings AdminConsole HostForms Listings

inductive View (page : Type) where
  | shown (page : page)
  | test (message : String)
  | unnamed (message : String)
  deriving DecidableEq, Repr

/-- The shape of the GET handlers: a gate, a `try` block and what its `catch` clause shows. -/
def generate {page : Type} (admin : Run Bool) (read : Run page) (failed : Exn → View page) :
    Run (View page) := do
  if ← admin then Prog.tryCatch (do return View.shown (← read)) (fun e => return failed e)
  else return .test "You are not authorized to perform that operation."

/-- The three hidden fields of a mapping around its subject: `del`, `chg` and the value. -/
def mappingLine (subject word name value : String) : Line where
  before := [(subject, name)]
  flag := "del" ++ word
  kept := "0"
  raised := "1"
  after := [("chg" ++ word, "0"), (word, value)]

/-! ## Groups of dynamic users -/

structure WindowsUsersPage where
  usergroups : List ExplicitGroupRow
  groupgroups : List GroupMapRow
  entitlementgroups : List GroupMapRow
  deriving DecidableEq, Repr

def readMappings (c : ConsoleCalls) : Run WindowsUsersPage := do
  if c.connect then
    Prog.throwing (.runtimeException
      ("Failed getting PC AdminDB connection: " ++ getMessage .sqlException))
  let ugm ← query (c.statement 0) .explicitGroups ["eppn", "groupdn"] Database.explicitGroups
  let ggm ← query (c.statement 1) .groupGroup ["groupurn", "groupdn"] Database.groupGroup
  let egm ← query (c.statement 2) .entitlementGroups ["entitlement", "groupdn"]
    Database.entitlementGroups
  return ⟨ugm, ggm, egm⟩

/-- The error page has a message but no view to show it. -/
def generateWindowsUsers (config : AdminConfig) (c : ConsoleCalls) (request : AdminRequest) :
    Run (View WindowsUsersPage) :=
  generate (isGroupAdmin config request) (readMappings c)
    (fun e => .unnamed ("Failed retrieving group mapping information: " ++ getMessage e))

def userColumns : List (Column ExplicitGroupRow) :=
  [⟨"uname", ExplicitGroupRow.eppn, "$heppn.getEppn()"⟩,
   ⟨"ugrp", ExplicitGroupRow.groupdn, "$heppn.getGroupdn()"⟩]

def groupColumns : List (Column GroupMapRow) :=
  [⟨"gname", GroupMapRow.subject, "$hgdn.getGroupurn()"⟩,
   ⟨"ggrp", GroupMapRow.groupdn, "$hgdn.getGroupdn()"⟩]

def entitlementColumns : List (Column GroupMapRow) :=
  [⟨"ename", GroupMapRow.subject, "$hedn.getEntitlement()"⟩,
   ⟨"egrp", GroupMapRow.groupdn, "$hedn.getGroupdn()"⟩]

def userLine (q : ExplicitGroupRow) : Line :=
  mappingLine "uname" "ugrp" (rendered "$heppn.getEppn()" q.eppn)
    (rendered "$heppn.getGroupdn()" q.groupdn)

def groupLine (q : GroupMapRow) : Line :=
  mappingLine "gname" "ggrp" (rendered "$hgdn.getGroupurn()" q.subject)
    (rendered "$hgdn.getGroupdn()" q.groupdn)

def entitlementLine (q : GroupMapRow) : Line :=
  mappingLine "ename" "egrp" (rendered "$hedn.getEntitlement()" q.subject)
    (rendered "$hedn.getGroupdn()" q.groupdn)

/-- A line of one of the three blocks, by its words. -/
theorem words_accessform {page : WindowsUsersPage} {b : List Line}
    (hb : b ∈ [page.usergroups.map userLine, page.groupgroups.map groupLine,
      page.entitlementgroups.map entitlementLine]) {l : Line} (hl : l ∈ b) :
    l.kept = "0" ∧ l.raised = "1" ∧ ∃ e ∈ [("uname", "ugrp"), ("gname", "ggrp"), ("ename", "egrp")],
      l.flag = "del" ++ e.2 ∧ l.words = [e.1, "del" ++ e.2, "chg" ++ e.2, e.2] := by
  simp only [List.mem_cons, List.not_mem_nil, or_false] at hb
  rcases hb with rfl | rfl | rfl
  · obtain ⟨q, -, rfl⟩ := List.mem_map.mp hl
    exact ⟨rfl, rfl, ("uname", "ugrp"), by decide, rfl, rfl⟩
  · obtain ⟨q, -, rfl⟩ := List.mem_map.mp hl
    exact ⟨rfl, rfl, ("gname", "ggrp"), by decide, rfl, rfl⟩
  · obtain ⟨q, -, rfl⟩ := List.mem_map.mp hl
    exact ⟨rfl, rfl, ("ename", "egrp"), by decide, rfl, rfl⟩

/-- The form named `accessform`. -/
def accessform (page : WindowsUsersPage) : Listing where
  marker := "aformsubmitted"
  blocks := [page.usergroups.map userLine, page.groupgroups.map groupLine,
    page.entitlementgroups.map entitlementLine]
  markerWordy := by decide
  wordsWordy := by
    intro b hb l hl
    obtain ⟨-, -, e, he, -, words⟩ := words_accessform hb hl
    rw [words]
    clear words
    revert e
    decide
  ownWords := by
    intro b hb l hl
    obtain ⟨-, -, e, he, -, words⟩ := words_accessform hb hl
    rw [words]
    clear words
    revert e
    decide
  apart := by
    have users : ∀ l ∈ page.usergroups.map userLine,
        l.words = ["uname", "delugrp", "chgugrp", "ugrp"] := by
      intro l hl
      obtain ⟨q, -, rfl⟩ := List.mem_map.mp hl
      rfl
    have groups : ∀ l ∈ page.groupgroups.map groupLine,
        l.words = ["gname", "delggrp", "chgggrp", "ggrp"] := by
      intro l hl
      obtain ⟨q, -, rfl⟩ := List.mem_map.mp hl
      rfl
    have entitlements : ∀ l ∈ page.entitlementgroups.map entitlementLine,
        l.words = ["ename", "delegrp", "chgegrp", "egrp"] := by
      intro l hl
      obtain ⟨q, -, rfl⟩ := List.mem_map.mp hl
      rfl
    simp only [List.pairwise_cons, List.mem_cons, List.not_mem_nil, or_false, forall_eq_or_imp,
      forall_eq, List.Pairwise.nil, and_true, false_implies, implies_true]
    refine ⟨⟨fun l hl l' hl' => ?_, fun l hl l' hl' => ?_⟩, fun l hl l' hl' => ?_⟩
    · rw [users l hl, groups l' hl']
      decide
    · rw [users l hl, entitlements l' hl']
      decide
    · rw [groups l hl, entitlements l' hl']
      decide

/-- What a branch deletes from the table of users' groups. -/
def userChosen (d : Deletion) (field : String → Option String) (r : ExplicitGroupRow) : Bool :=
  d.flag == "delugrp" && (sqlEq r.eppn (field "uname") && sqlEq r.groupdn (field "ugrp"))

/-- What the branch with this flag deletes from its table. -/
def mappingChosen (flag subject word : String) (d : Deletion) (field : String → Option String)
    (r : GroupMapRow) : Bool :=
  d.flag == flag && (sqlEq r.subject (field subject) && sqlEq r.groupdn (field word))

theorem answered_accessform (page : WindowsUsersPage) :
    (accessform page).Answered groupDeletions where
  flags := by
    rw [Apart]
    decide
  known := by decide
  words := by
    change ∀ d ∈ groupDeletions, wordy d.flag = true ∧ d.flag ≠ "aformsubmitted"
    decide
  own := by
    intro d hd b hb l hl mem
    obtain ⟨-, raised, e, he, flag, words⟩ := words_accessform hb hl
    rw [words] at mem
    rw [flag, raised]
    clear words flag
    simp only [groupDeletions, List.mem_cons, List.not_mem_nil, or_false] at hd he
    rcases hd with rfl | rfl | rfl <;> rcases he with rfl | rfl | rfl <;> revert mem <;> decide

/-- The flag of a line says which block it stands in. -/
theorem flag_accessform {page : WindowsUsersPage} {b : List Line} {k : Nat}
    (hb : (b, k) ∈ (accessform page).blocks.zipIdx) {l : Line} (hl : l ∈ b) :
    (k = 0 ∧ l.flag = "delugrp") ∨ (k = 1 ∧ l.flag = "delggrp") ∨ (k = 2 ∧ l.flag = "delegrp") := by
  simp only [accessform, List.zipIdx_cons, List.zipIdx_nil, List.mem_cons, List.not_mem_nil,
    or_false, Prod.mk.injEq] at hb
  rcases hb with ⟨rfl, rfl⟩ | ⟨rfl, rfl⟩ | ⟨rfl, rfl⟩
  · obtain ⟨q, -, rfl⟩ := List.mem_map.mp hl
    exact .inl ⟨rfl, rfl⟩
  · obtain ⟨q, -, rfl⟩ := List.mem_map.mp hl
    exact .inr (.inl ⟨rfl, rfl⟩)
  · obtain ⟨q, -, rfl⟩ := List.mem_map.mp hl
    exact .inr (.inr ⟨rfl, rfl⟩)

theorem shows_users (page : WindowsUsersPage) :
    Shows groupDeletions (accessform page) 0 page.usergroups userLine (fun _ => userColumns)
      userChosen where
  block := List.mem_cons_self
  carried := by
    intro q _ c hc
    simp only [userColumns, List.mem_cons, List.not_mem_nil, or_false] at hc
    rcases hc with rfl | rfl <;> simp [userLine, mappingLine, Line.values]
  ruled := fun q _ => ⟨_, List.mem_cons_self, rfl⟩
  chooses := by
    intro d hd q _ flag field r
    rw [userChosen, flag]
    simp [userLine, mappingLine, userColumns]
  elsewhere := by
    intro d hd b k hb other l hl flag field r
    rw [userChosen, ← flag]
    rcases flag_accessform hb hl with ⟨rfl, -⟩ | ⟨-, named⟩ | ⟨-, named⟩
    · exact absurd rfl other
    all_goals
      rw [named]
      rfl

theorem shows_groups (page : WindowsUsersPage) :
    Shows groupDeletions (accessform page) 1 page.groupgroups groupLine (fun _ => groupColumns)
      (mappingChosen "delggrp" "gname" "ggrp") where
  block := List.mem_cons_of_mem _ List.mem_cons_self
  carried := by
    intro q _ c hc
    simp only [groupColumns, List.mem_cons, List.not_mem_nil, or_false] at hc
    rcases hc with rfl | rfl <;> simp [groupLine, mappingLine, Line.values]
  ruled := fun q _ => ⟨_, List.mem_cons_of_mem _ List.mem_cons_self, rfl⟩
  chooses := by
    intro d hd q _ flag field r
    rw [mappingChosen, flag]
    simp [groupLine, mappingLine, groupColumns]
  elsewhere := by
    intro d hd b k hb other l hl flag field r
    rw [mappingChosen, ← flag]
    rcases flag_accessform hb hl with ⟨-, named⟩ | ⟨rfl, -⟩ | ⟨-, named⟩
    · rw [named]
      rfl
    · exact absurd rfl other
    · rw [named]
      rfl

theorem shows_entitlements (page : WindowsUsersPage) :
    Shows groupDeletions (accessform page) 2 page.entitlementgroups entitlementLine
      (fun _ => entitlementColumns) (mappingChosen "delegrp" "ename" "egrp") where
  block := List.mem_cons_of_mem _ (List.mem_cons_of_mem _ List.mem_cons_self)
  carried := by
    intro q _ c hc
    simp only [entitlementColumns, List.mem_cons, List.not_mem_nil, or_false] at hc
    rcases hc with rfl | rfl <;> simp [entitlementLine, mappingLine, Line.values]
  ruled := fun q _ => ⟨_, List.mem_cons_of_mem _ (List.mem_cons_of_mem _ List.mem_cons_self), rfl⟩
  chooses := by
    intro d hd q _ flag field r
    rw [mappingChosen, flag]
    simp [entitlementLine, mappingLine, entitlementColumns]
  elsewhere := by
    intro d hd b k hb other l hl flag field r
    rw [mappingChosen, ← flag]
    rcases flag_accessform hb hl with ⟨-, named⟩ | ⟨-, named⟩ | ⟨rfl, -⟩
    · rw [named]
      rfl
    · rw [named]
      rfl
    · exact absurd rfl other

def WindowsUsersPage.of (db : Database) : WindowsUsersPage :=
  ⟨db.explicitGroups, db.groupGroup, db.entitlementGroups⟩

/-- Whoever is shown a page is shown what there is to read. -/
theorem shown_eq {page : Type} {admin : Run Bool} (reads : admin.Reads) {read : Run page} {w : World}
    {present seen : page} (readable : read.run w = (.ok present, w)) {failed : Exn → View page}
    (shown : ((generate admin read failed).run w).1 = .ok (.shown seen)) : seen = present := by
  have whole : (generate admin read failed).run w =
      (.ok (.shown seen), ((generate admin read failed).run w).2) := Prod.ext shown rfl
  rw [generate] at whole
  obtain ⟨admitted, -, rest⟩ := Prog.run_bind_reads reads whole
  cases admitted with
  | false => cases congrArg Prod.fst rest
  | true =>
    have body : (do return View.shown (← read) : Run (View page)).run w =
        (.ok (.shown present), w) := by
      rw [Prog.run_bind_ok readable]
      rfl
    rw [if_pos rfl, Prog.run_tryCatch, body] at rest
    cases congrArg Prod.fst rest
    rfl

theorem run_readMappings (w : World) :
    (readMappings .noOutage).run w = (.ok (.of w.db), w) := rfl

/-- A POST behind a gate that lets it through. -/
theorem run_updating {gate : Run Bool} {w w' : World} (admitted : gate.run w = (.ok true, w))
    {form : Run Unit} (done : form.run w = (.ok (), w')) (target refused : Page) :
    ((do
      if ← gate then
        Prog.tryCatch (connected .noOutage form) failedUpdating
        return target
      else return refused : Run Page).run w) = (.ok target, w') := by
  have connect : connected .noOutage form = form := rfl
  have update : (Prog.tryCatch (connected .noOutage form) failedUpdating).run w = (.ok (), w') := by
    rw [connect, Prog.run_tryCatch, done]
  rw [Prog.run_bind_ok admitted, if_pos rfl, Prog.run_bind_ok update]
  rfl

/-- The three tables replaced. -/
def withMappings (db : Database) (users : List ExplicitGroupRow)
    (groups entitlements : List GroupMapRow) : Database :=
  { db with explicitGroups := users, groupGroup := groups, entitlementGroups := entitlements }

theorem withMappings_inj {db : Database} {u u' : List ExplicitGroupRow} {g g' e e' : List GroupMapRow} :
    withMappings db u g e = withMappings db u' g' e' ↔ u = u' ∧ g = g' ∧ e = e' := by
  constructor
  · intro equal
    exact ⟨congrArg Database.explicitGroups equal, congrArg Database.groupGroup equal,
      congrArg Database.entitlementGroups equal⟩
  · rintro ⟨rfl, rfl, rfl⟩
    rfl

/-- The database is its three tables and the rest. -/
theorem eq_withMappings {db db' : Database}
    (rest : withMappings db' [] [] [] = withMappings db [] [] []) :
    db' = withMappings db db'.explicitGroups db'.groupGroup db'.entitlementGroups := by
  calc db' = withMappings (withMappings db' [] [] []) db'.explicitGroups db'.groupGroup
        db'.entitlementGroups := rfl
    _ = withMappings (withMappings db [] [] []) db'.explicitGroups db'.groupGroup
        db'.entitlementGroups := by rw [rest]
    _ = withMappings db db'.explicitGroups db'.groupGroup db'.entitlementGroups := rfl

/-- What the form deletes, table by table. -/
theorem foldl_groupDeletions {p : Parameters} {marks : List (Deletion × String)}
    (rules : ∀ m ∈ marks, m.1 ∈ groupDeletions) (db : Database) :
    marks.foldl (removeMarked p) db = withMappings db
      (deleteWhere (fun r => marks.any (fun m =>
        userChosen m.1 (fun name => p.getParameter (name ++ m.2)) r)) db.explicitGroups)
      (deleteWhere (fun r => marks.any (fun m => mappingChosen "delggrp" "gname" "ggrp" m.1
        (fun name => p.getParameter (name ++ m.2)) r)) db.groupGroup)
      (deleteWhere (fun r => marks.any (fun m => mappingChosen "delegrp" "ename" "egrp" m.1
        (fun name => p.getParameter (name ++ m.2)) r)) db.entitlementGroups) := by
  have branches : ∀ m ∈ marks, ∀ field db',
      m.1.remove field db' = withMappings db'
        (deleteWhere (userChosen m.1 field) db'.explicitGroups)
        (deleteWhere (mappingChosen "delggrp" "gname" "ggrp" m.1 field) db'.groupGroup)
        (deleteWhere (mappingChosen "delegrp" "ename" "egrp" m.1 field) db'.entitlementGroups) := by
    intro m hm field db'
    have rule := rules m hm
    simp only [groupDeletions, List.mem_cons, List.not_mem_nil, or_false] at rule
    rcases rule with rule | rule | rule <;> rw [rule] <;>
      simp [withMappings, userChosen, mappingChosen, deleteWhere]
  have rest : withMappings (marks.foldl (removeMarked p) db) [] [] [] = withMappings db [] [] [] :=
    frame_removed (F := fun db => withMappings db [] [] [])
      (fun m hm field db' => by rw [branches m hm]; rfl) db
  rw [eq_withMappings rest]
  congr 1
  · exact rows_removed (T := Database.explicitGroups)
      (fun m hm field db' => by rw [branches m hm]; rfl) db
  · exact rows_removed (T := Database.groupGroup) (fun m hm field db' => by rw [branches m hm]; rfl) db
  · exact rows_removed (T := Database.entitlementGroups)
      (fun m hm field db' => by rw [branches m hm]; rfl) db

/-- What the browser carries as it is has no character that ends an attribute or starts a reference. -/
structure PlainMappings (db : Database) : Prop where
  users : ∀ q ∈ db.explicitGroups, ∀ c ∈ userColumns, (c.get q).all plain = true
  groups : ∀ q ∈ db.groupGroup, ∀ c ∈ groupColumns, (c.get q).all plain = true
  entitlements : ∀ q ∈ db.entitlementGroups, ∀ c ∈ entitlementColumns, (c.get q).all plain = true

/-- The database without the rows that are equal to a flagged one. -/
def mappingsCleared (page : WindowsUsersPage) (delete : Listing.Clicked) (db : Database) : Database :=
  withMappings db
    (deleteWhere (fun r => (flaggedRows page.usergroups (delete 0)).any (equalBy userColumns r))
      db.explicitGroups)
    (deleteWhere (fun r => (flaggedRows page.groupgroups (delete 1)).any (equalBy groupColumns r))
      db.groupGroup)
    (deleteWhere (fun r => (flaggedRows page.entitlementgroups (delete 2)).any
      (equalBy entitlementColumns r)) db.entitlementGroups)

/-- No flagged row lacks its subject or its group. -/
def MappingsNamed (page : WindowsUsersPage) (delete : Listing.Clicked) : Prop :=
  (∀ q ∈ flaggedRows page.usergroups (delete 0), ∀ c ∈ userColumns, c.get q ≠ none) ∧
  (∀ q ∈ flaggedRows page.groupgroups (delete 1), ∀ c ∈ groupColumns, c.get q ≠ none) ∧
  (∀ q ∈ flaggedRows page.entitlementgroups (delete 2), ∀ c ∈ entitlementColumns, c.get q ≠ none)

section Posting

variable {browser : String → String} (carries : ∀ v, plain v = true → browser v = v)
include carries

theorem legible_accessform (page : WindowsUsersPage) : (accessform page).Legible browser := by
  intro b hb l hl
  obtain ⟨kept, raised, -⟩ := words_accessform hb hl
  rw [kept, raised, carries "0" (by decide), carries "1" (by decide)]
  exact ⟨rfl, by decide⟩

theorem run_windowsForms (page : WindowsUsersPage) (delete : Listing.Clicked) (w : World) :
    (windowsForms .noOutage (((accessform page).form delete).parameters browser)).run w =
      (.ok (), { w with
        db := (marked groupDeletions (((accessform page).form delete).parameters browser)).foldl
          (removeMarked (((accessform page).form delete).parameters browser)) w.db }) := by
  have marker : submitted (((accessform page).form delete).parameters browser) "aformsubmitted" =
      true := submitted_marker carries ((accessform page).form delete)
  rw [windowsForms, if_pos marker,
    run_deleteMarked _ (fun _ => rfl) (answered_accessform page).known]

theorem run_handlePostOfWindowsUsers {config : AdminConfig} {user : Option String}
    (admin : listed config.pcadminlist user = true) (page : WindowsUsersPage)
    (delete : Listing.Clicked) (w : World) :
    (handlePostOfWindowsUsers config .noOutage
        ⟨user, ((accessform page).form delete).parameters browser⟩).run w =
      (.ok (.redirect "/admin/windows_users"), { w with
        db := (marked groupDeletions (((accessform page).form delete).parameters browser)).foldl
          (removeMarked (((accessform page).form delete).parameters browser)) w.db }) :=
  run_updating (run_isAdmin admin w) (run_windowsForms carries page delete w) _ _

end Posting

/-- Submitting the form that the page renders deletes the rows that are equal to a flagged row, and
changes nothing else, if and only if no flagged row lacks its subject or its group. -/
theorem flagged_mappings_removed_iff (config : AdminConfig) (browser : String → String)
    (viewer : AdminRequest) (user : Option String) (admin : listed config.pcadminlist user = true)
    (w : World) (contents : PlainMappings w.db) (page : WindowsUsersPage)
    (shown : ((generateWindowsUsers config .noOutage viewer).run w).1 = .ok (.shown page))
    (delete : Listing.Clicked)
    (carries : ∀ v ∈ ((accessform page).form delete).values, plain v = true → browser v = v) :
    ((handlePostOfWindowsUsers config .noOutage
        ⟨user, ((accessform page).form delete).parameters browser⟩).run w).2 =
        { w with db := mappingsCleared page delete w.db } ↔
      MappingsNamed page delete := by
  obtain rfl := shown_eq (reads_isAdmin config viewer) (run_readMappings w) shown
  have mends := mended_plain browser
  rw [NumberedForm.parameters_mended carries]
  have answered := answered_accessform (.of w.db)
  have legible := legible_accessform mends (.of w.db)
  have rules : ∀ m ∈ marked groupDeletions
      (((accessform (.of w.db)).form delete).parameters (mended browser)),
      m.1 ∈ groupDeletions := fun m hm => ((mem_marked answered.flags).mp hm).1
  have onlyDb : ∀ db db' : Database, ({ w with db := db } : World) = { w with db := db' } ↔ db = db' :=
    fun db db' => ⟨congrArg World.db, fun same => by rw [same]⟩
  rw [run_handlePostOfWindowsUsers mends admin, onlyDb, foldl_groupDeletions rules,
    mappingsCleared, withMappings_inj]
  exact and_congr
    (cleared_columns_iff mends (fun q hq => mem_of_flagged hq) contents.users
      (dropped_iff (shows_users _) answered legible))
    (and_congr
      (cleared_columns_iff mends (fun q hq => mem_of_flagged hq) contents.groups
        (dropped_iff (shows_groups _) answered legible))
      (cleared_columns_iff mends (fun q hq => mem_of_flagged hq) contents.entitlements
        (dropped_iff (shows_entitlements _) answered legible)))

def mappedGroups : World := { World.empty with db := { Database.empty with
  explicitGroups := [⟨some "ann@x", some "cn=ops"⟩, ⟨some "Ann@x", some "cn=web"⟩]
  groupGroup := [⟨some "urn:lab", some "cn=ops"⟩]
  entitlementGroups := [⟨none, some "cn=web"⟩] } }

/-- The second row of the first block and the only one of the second. -/
def twoMappings : Listing.Clicked := fun k i => k == 0 && i == 1 || k == 1 && i == 0

def general : AdminConfig := ⟨some "root@x", none, none, none⟩

def root : AdminRequest := ⟨some "root@x", ⟨[], List.nodup_nil⟩⟩

theorem two_mappings_removed :
    ((handlePostOfWindowsUsers general .noOutage ⟨some "root@x",
      ((accessform (.of mappedGroups.db)).form twoMappings).parameters id⟩).run mappedGroups).2 =
      { mappedGroups with db := { mappedGroups.db with
        explicitGroups := [⟨some "ann@x", some "cn=ops"⟩], groupGroup := [] } } := by
  have contents : PlainMappings mappedGroups.db := by
    constructor <;> decide +kernel
  have named : MappingsNamed (.of mappedGroups.db) twoMappings := by
    refine ⟨?_, ?_, ?_⟩ <;> decide +kernel
  refine ((flagged_mappings_removed_iff general id root (some "root@x") (by decide +kernel)
    mappedGroups contents (.of mappedGroups.db) (by decide +kernel) twoMappings
    (fun _ _ _ => rfl)).mpr named).trans ?_
  decide +kernel

/-! ## Groups and gateways of hosts -/

structure GatewayPage where
  hostaccessgroups : List HostAccessRow
  hostgateway : List GatewayRow
  deriving DecidableEq, Repr

def readGateways (c : ConsoleCalls) : Run GatewayPage := do
  if c.connect then
    Prog.throwing (.runtimeException ("Failed connecting to database: " ++ getMessage .sqlException))
  let haga ← query (c.statement 0) .hostAccessGroup ["fqdn", "ou", "groupdn"] Database.hostAccessGroup
  let hga ← query (c.statement 1) .hostGateway ["fqdn", "gateway", "groupdn"] Database.hostGateway
  return ⟨haga, hga⟩

def generateHostGatewayDeatils (config : AdminConfig) (c : ConsoleCalls) (request : AdminRequest) :
    Run (View GatewayPage) :=
  generate (isTargetProvisioningAdmin config request) (readGateways c)
    (fun e => .test ("Failed retrieving host gateway and group data: " ++ getMessage e))

def hostGroupColumns : List (Column HostAccessRow) :=
  [⟨"hostfqdn", HostAccessRow.fqdn, "$hag.getFqdn()"⟩,
   ⟨"hgrp", HostAccessRow.groupdn, "$hag.getGroupdn()"⟩]

def ouGroupColumns : List (Column HostAccessRow) :=
  [⟨"oudn", HostAccessRow.ou, "$hag.getOu()"⟩,
   ⟨"ogrp", HostAccessRow.groupdn, "$hag.getGroupdn()"⟩]

/-- The template shows the OU of a row only if there is no host in it. -/
def accessColumns (q : HostAccessRow) : List (Column HostAccessRow) :=
  if q.fqdn.isSome then hostGroupColumns else ouGroupColumns

def accessLine (q : HostAccessRow) : Line :=
  if q.fqdn.isSome then
    mappingLine "hostfqdn" "hgrp" (rendered "$hag.getFqdn()" q.fqdn)
      (rendered "$hag.getGroupdn()" q.groupdn)
  else
    mappingLine "oudn" "ogrp" (rendered "$hag.getOu()" q.ou) (rendered "$hag.getGroupdn()" q.groupdn)

def gatewayColumns : List (Column GatewayRow) :=
  [⟨"tfqdn", GatewayRow.fqdn, "$hgw.getFqdn()"⟩,
   ⟨"hgw", GatewayRow.gateway, "$hgw.getGateway()"⟩,
   ⟨"hgwg", GatewayRow.groupdn, "$hgw.getGroupdn()"⟩]

def gatewayLine (q : GatewayRow) : Line where
  before := [("tfqdn", rendered "$hgw.getFqdn()" q.fqdn)]
  flag := "delgw"
  kept := "0"
  raised := "1"
  after := [("chggw", "0"), ("hgw", rendered "$hgw.getGateway()" q.gateway),
    ("hgwg", rendered "$hgw.getGroupdn()" q.groupdn)]

theorem words_accessLine (q : HostAccessRow) :
    (accessLine q).kept = "0" ∧ (accessLine q).raised = "1" ∧
      ∃ e ∈ [("hostfqdn", "hgrp"), ("oudn", "ogrp")], (accessLine q).flag = "del" ++ e.2 ∧
        (accessLine q).words = [e.1, "del" ++ e.2, "chg" ++ e.2, e.2] := by
  rw [accessLine]
  split
  · exact ⟨rfl, rfl, ("hostfqdn", "hgrp"), by decide, rfl, rfl⟩
  · exact ⟨rfl, rfl, ("oudn", "ogrp"), by decide, rfl, rfl⟩

def groupform (page : GatewayPage) : Listing where
  marker := "groupformsubmitted"
  blocks := [page.hostaccessgroups.map accessLine]
  markerWordy := by decide
  wordsWordy := by
    intro b hb l hl
    obtain rfl := List.mem_singleton.mp hb
    obtain ⟨q, -, rfl⟩ := List.mem_map.mp hl
    obtain ⟨-, -, e, he, -, words⟩ := words_accessLine q
    rw [words]
    clear words
    revert e
    decide
  ownWords := by
    intro b hb l hl
    obtain rfl := List.mem_singleton.mp hb
    obtain ⟨q, -, rfl⟩ := List.mem_map.mp hl
    obtain ⟨-, -, e, he, -, words⟩ := words_accessLine q
    rw [words]
    clear words
    revert e
    decide
  apart := List.pairwise_singleton _ _

def gwform (page : GatewayPage) : Listing where
  marker := "gwformsubmitted"
  blocks := [page.hostgateway.map gatewayLine]
  markerWordy := by decide
  wordsWordy := by
    intro b hb l hl
    obtain rfl := List.mem_singleton.mp hb
    obtain ⟨q, -, rfl⟩ := List.mem_map.mp hl
    change ∀ word ∈ ["tfqdn", "delgw", "chggw", "hgw", "hgwg"], wordy word = true
    decide
  ownWords := by
    intro b hb l hl
    obtain rfl := List.mem_singleton.mp hb
    obtain ⟨q, -, rfl⟩ := List.mem_map.mp hl
    change ["tfqdn", "delgw", "chggw", "hgw", "hgwg"].Nodup
    decide
  apart := List.pairwise_singleton _ _

def accessChosen (d : Deletion) (field : String → Option String) (r : HostAccessRow) : Bool :=
  if d.flag == "delhgrp" then sqlEq r.fqdn (field "hostfqdn") && sqlEq r.groupdn (field "hgrp")
  else sqlEq r.ou (field "oudn") && sqlEq r.groupdn (field "ogrp")

def gatewayChosen (_ : Deletion) (field : String → Option String) (r : GatewayRow) : Bool :=
  sqlEq r.fqdn (field "tfqdn") && sqlEq r.gateway (field "hgw") && sqlEq r.groupdn (field "hgwg")

theorem answered_groupform (page : GatewayPage) : (groupform page).Answered hostGroupDeletions where
  flags := by
    rw [Apart]
    decide
  known := by decide
  words := by
    change ∀ d ∈ hostGroupDeletions, wordy d.flag = true ∧ d.flag ≠ "groupformsubmitted"
    decide
  own := by
    intro d hd b hb l hl mem
    obtain rfl := List.mem_singleton.mp hb
    obtain ⟨q, -, rfl⟩ := List.mem_map.mp hl
    obtain ⟨-, raised, e, he, flag, words⟩ := words_accessLine q
    rw [words] at mem
    rw [flag, raised]
    clear words flag
    simp only [hostGroupDeletions, List.mem_cons, List.not_mem_nil, or_false] at hd he
    rcases hd with rfl | rfl <;> rcases he with rfl | rfl <;> revert mem <;> decide

theorem answered_gwform (page : GatewayPage) : (gwform page).Answered gatewayDeletions where
  flags := by
    rw [Apart]
    decide
  known := by decide
  words := by
    change ∀ d ∈ gatewayDeletions, wordy d.flag = true ∧ d.flag ≠ "gwformsubmitted"
    decide
  own := by
    intro d hd b hb l hl _
    obtain rfl := List.mem_singleton.mp hd
    obtain rfl := List.mem_singleton.mp hb
    obtain ⟨q, -, rfl⟩ := List.mem_map.mp hl
    exact ⟨rfl, rfl⟩

/-- A page with one block has no other. -/
theorem only_block {L : Listing} {block b : List Line} {k : Nat} (single : L.blocks = [block])
    (hb : (b, k) ∈ L.blocks.zipIdx) : k = 0 := by
  rw [single] at hb
  simp only [List.zipIdx_cons, List.zipIdx_nil, List.mem_singleton, Prod.mk.injEq] at hb
  exact hb.2

theorem shows_access (page : GatewayPage) :
    Shows hostGroupDeletions (groupform page) 0 page.hostaccessgroups accessLine accessColumns
      accessChosen where
  block := List.mem_cons_self
  carried := by
    intro q _ c hc
    unfold accessLine
    unfold accessColumns at hc
    split at hc
    · rename_i host
      rw [if_pos host]
      simp only [hostGroupColumns, List.mem_cons, List.not_mem_nil, or_false] at hc
      rcases hc with rfl | rfl <;> simp [mappingLine, Line.values]
    · rename_i host
      rw [if_neg host]
      simp only [ouGroupColumns, List.mem_cons, List.not_mem_nil, or_false] at hc
      rcases hc with rfl | rfl <;> simp [mappingLine, Line.values]
  ruled := by
    intro q _
    unfold accessLine
    split
    · exact ⟨_, List.mem_cons_self, rfl⟩
    · exact ⟨_, List.mem_cons_of_mem _ List.mem_cons_self, rfl⟩
  chooses := by
    intro d _ q _ flag field r
    rw [accessChosen, flag]
    unfold accessLine accessColumns
    split <;> simp [mappingLine, hostGroupColumns, ouGroupColumns]
  elsewhere := by
    intro d _ b k hb other
    exact absurd (only_block rfl hb) other

theorem shows_gateways (page : GatewayPage) :
    Shows gatewayDeletions (gwform page) 0 page.hostgateway gatewayLine (fun _ => gatewayColumns)
      gatewayChosen where
  block := List.mem_cons_self
  carried := by
    intro q _ c hc
    simp only [gatewayColumns, List.mem_cons, List.not_mem_nil, or_false] at hc
    rcases hc with rfl | rfl | rfl <;> simp [gatewayLine, Line.values]
  ruled := fun q _ => ⟨_, List.mem_cons_self, rfl⟩
  chooses := by
    intro d _ q _ _ field r
    simp [gatewayChosen, gatewayColumns, Bool.and_assoc]
  elsewhere := by
    intro d _ b k hb other
    exact absurd (only_block rfl hb) other

def GatewayPage.of (db : Database) : GatewayPage := ⟨db.hostAccessGroup, db.hostGateway⟩

theorem run_readGateways (w : World) : (readGateways .noOutage).run w = (.ok (.of w.db), w) := rfl

def accessPart : Listings.Part HostAccessRow where
  rows := Database.hostAccessGroup
  put := fun db t => { db with hostAccessGroup := t }
  rows_put := fun _ _ => rfl
  put_put := fun _ _ _ => rfl
  put_rows := fun _ => rfl

def gatewayPart : Listings.Part GatewayRow where
  rows := Database.hostGateway
  put := fun db t => { db with hostGateway := t }
  rows_put := fun _ _ => rfl
  put_put := fun _ _ _ => rfl
  put_rows := fun _ => rfl

theorem remove_hostGroupDeletions {d : Deletion} (mem : d ∈ hostGroupDeletions)
    (field : String → Option String) (db : Database) :
    d.remove field db =
      accessPart.put db (deleteWhere (accessChosen d field) (accessPart.rows db)) := by
  simp only [hostGroupDeletions, List.mem_cons, List.not_mem_nil, or_false] at mem
  rcases mem with rfl | rfl <;> rfl

theorem remove_gatewayDeletions {d : Deletion} (mem : d ∈ gatewayDeletions)
    (field : String → Option String) (db : Database) :
    d.remove field db =
      gatewayPart.put db (deleteWhere (gatewayChosen d field) (gatewayPart.rows db)) := by
  obtain rfl := List.mem_singleton.mp mem
  rfl

structure PlainGateways (db : Database) : Prop where
  access : ∀ q ∈ db.hostAccessGroup, ∀ c ∈ accessColumns q, (c.get q).all plain = true
  gateways : ∀ q ∈ db.hostGateway, ∀ c ∈ gatewayColumns, (c.get q).all plain = true

/-- The form that is submitted, with its flagged rows. -/
inductive GatewayClicks where
  | groupform (delete : Listing.Clicked)
  | gwform (delete : Listing.Clicked)

namespace GatewayClicks

def form (page : GatewayPage) : GatewayClicks → NumberedForm
  | .groupform delete => (GroupForms.groupform page).form delete
  | .gwform delete => (GroupForms.gwform page).form delete

/-- The database without the rows that agree with a flagged one in what is displayed of that. -/
def cleared (page : GatewayPage) (db : Database) : GatewayClicks → Database
  | .groupform delete => { db with
      hostAccessGroup := deleteWhere (fun r => (flaggedRows page.hostaccessgroups (delete 0)).any
        (fun q => equalBy (accessColumns q) r q)) db.hostAccessGroup }
  | .gwform delete => { db with
      hostGateway := deleteWhere (fun r => (flaggedRows page.hostgateway (delete 0)).any
        (fun q => equalBy gatewayColumns r q)) db.hostGateway }

/-- No flagged row lacks a value that is displayed. -/
def Named (page : GatewayPage) : GatewayClicks → Prop
  | .groupform delete => ∀ q ∈ flaggedRows page.hostaccessgroups (delete 0), ∀ c ∈ accessColumns q,
      c.get q ≠ none
  | .gwform delete => ∀ q ∈ flaggedRows page.hostgateway (delete 0), ∀ c ∈ gatewayColumns,
      c.get q ≠ none

end GatewayClicks

/-- A row without its group, or with neither a host nor an OU, is not selected by anything. -/
theorem stuck_access {browser : String → String} {q : HostAccessRow} {c : Column HostAccessRow}
    (hc : c ∈ accessColumns q) (null : c.get q = none) (q' : HostAccessRow) :
    ¬ Hits browser (accessColumns q') q q' := by
  intro hit
  have given : q.groupdn ≠ none ∧ (q.fqdn ≠ none ∨ q.ou ≠ none) := by
    unfold accessColumns at hit
    split at hit
    · have target : q.fqdn ≠ none := hit.get_ne_none List.mem_cons_self
      exact ⟨hit.get_ne_none (List.mem_cons_of_mem _ List.mem_cons_self), .inl target⟩
    · have target : q.ou ≠ none := hit.get_ne_none List.mem_cons_self
      exact ⟨hit.get_ne_none (List.mem_cons_of_mem _ List.mem_cons_self), .inr target⟩
  obtain ⟨given, aimed⟩ := given
  unfold accessColumns at hc
  split at hc
  · rename_i host
    simp only [hostGroupColumns, List.mem_cons, List.not_mem_nil, or_false] at hc
    rcases hc with rfl | rfl
    · exact Option.isSome_iff_ne_none.mp host null
    · exact given null
  · rename_i host
    simp only [ouGroupColumns, List.mem_cons, List.not_mem_nil, or_false] at hc
    rcases hc with rfl | rfl
    · rcases aimed with fqdn | ou
      · exact host (Option.isSome_iff_ne_none.mpr fqdn)
      · exact ou null
    · exact given null

section Posting

variable {browser : String → String} (carries : ∀ v, plain v = true → browser v = v)
include carries

theorem legible_groupform (page : GatewayPage) : (groupform page).Legible browser := by
  intro b hb l hl
  obtain rfl := List.mem_singleton.mp hb
  obtain ⟨q, -, rfl⟩ := List.mem_map.mp hl
  obtain ⟨kept, raised, -⟩ := words_accessLine q
  rw [kept, raised, carries "0" (by decide), carries "1" (by decide)]
  exact ⟨rfl, by decide⟩

theorem legible_gwform (page : GatewayPage) : (gwform page).Legible browser := by
  intro b hb l hl
  obtain rfl := List.mem_singleton.mp hb
  obtain ⟨q, -, rfl⟩ := List.mem_map.mp hl
  change browser "1" = "1" ∧ browser "0" ≠ "1"
  rw [carries "0" (by decide), carries "1" (by decide)]
  exact ⟨rfl, by decide⟩

theorem run_groupform (page : GatewayPage) (delete : Listing.Clicked) (w : World) :
    (hostAndGatewayForms .noOutage (((groupform page).form delete).parameters browser)).run w =
      (.ok (), { w with
        db := (marked hostGroupDeletions (((groupform page).form delete).parameters browser)).foldl
          (removeMarked (((groupform page).form delete).parameters browser)) w.db }) := by
  have marker : submitted (((groupform page).form delete).parameters browser) "groupformsubmitted" =
      true := submitted_marker carries ((groupform page).form delete)
  rw [hostAndGatewayForms, if_pos marker,
    run_deleteMarked _ (fun _ => rfl) (answered_groupform page).known]

theorem run_gwform (page : GatewayPage) (delete : Listing.Clicked) (w : World) :
    (hostAndGatewayForms .noOutage (((gwform page).form delete).parameters browser)).run w =
      (.ok (), { w with
        db := (marked gatewayDeletions (((gwform page).form delete).parameters browser)).foldl
          (removeMarked (((gwform page).form delete).parameters browser)) w.db }) := by
  have other : ¬ submitted (((gwform page).form delete).parameters browser) "groupformsubmitted" =
      true := by
    have unsent : (((gwform page).form delete).parameters browser).getParameter
        "groupformsubmitted" = none :=
      NumberedForm.getParameter_word (by decide)
        (show "groupformsubmitted" ≠ "gwformsubmitted" by decide)
    rw [submitted, unsent]
    decide
  have marker : submitted (((gwform page).form delete).parameters browser) "gwformsubmitted" =
      true := submitted_marker carries ((gwform page).form delete)
  rw [hostAndGatewayForms, if_neg other, if_pos marker,
    run_deleteMarked _ (fun _ => rfl) (answered_gwform page).known]

end Posting

/-- Submitting either form of the page deletes the rows that agree with a flagged row, and changes
nothing else, if and only if no flagged row lacks a value that is displayed. -/
theorem flagged_gateways_removed_iff (config : AdminConfig) (browser : String → String)
    (viewer : AdminRequest) (user : Option String) (admin : listed config.pcadminlist user = true)
    (w : World) (contents : PlainGateways w.db) (page : GatewayPage)
    (shown : ((generateHostGatewayDeatils config .noOutage viewer).run w).1 = .ok (.shown page))
    (clicks : GatewayClicks)
    (carries : ∀ v ∈ (clicks.form page).values, plain v = true → browser v = v) :
    ((handlePostOfHostAndGatewayDetails config .noOutage
        ⟨user, (clicks.form page).parameters browser⟩).run w).2 =
        { w with db := clicks.cleared page w.db } ↔
      clicks.Named page := by
  obtain rfl := shown_eq (reads_isAdmin config viewer) (run_readGateways w) shown
  have onlyDb : ∀ db db' : Database, ({ w with db := db } : World) = { w with db := db' } ↔ db = db' :=
    fun db db' => ⟨congrArg World.db, fun same => by rw [same]⟩
  have mends := mended_plain browser
  rw [NumberedForm.parameters_mended carries]
  cases clicks with
  | groupform delete =>
    have posted : (handlePostOfHostAndGatewayDetails config .noOutage
        ⟨user, ((groupform (.of w.db)).form delete).parameters (mended browser)⟩).run w =
          (.ok _, _) :=
      run_updating (run_isAdmin admin w) (run_groupform mends _ delete w) _ _
    rw [GatewayClicks.form, posted, onlyDb]
    exact block_removed_iff mends accessPart (fun d hd => remove_hostGroupDeletions hd)
      (shows_access (.of w.db)) (answered_groupform _) (legible_groupform mends _) contents.access
      (fun q _ c hc null q' _ => stuck_access hc null q') delete
  | gwform delete =>
    have posted : (handlePostOfHostAndGatewayDetails config .noOutage
        ⟨user, ((gwform (.of w.db)).form delete).parameters (mended browser)⟩).run w = (.ok _, _) :=
      run_updating (run_isAdmin admin w) (run_gwform mends _ delete w) _ _
    rw [GatewayClicks.form, posted, onlyDb]
    exact block_removed_iff mends gatewayPart (fun d hd => remove_gatewayDeletions hd)
      (shows_gateways (.of w.db)) (answered_gwform _) (legible_gwform mends _) contents.gateways
      (fun q _ c hc null q' _ hit => hit.get_ne_none hc null) delete

/-- An access group without a host and one for it, and a gateway. -/
def gated : World := { World.empty with db := { Database.empty with
  hostAccessGroup := [⟨none, some "ou=lab", some "cn=rdp"⟩, ⟨some "h1.x", none, some "cn=rdp"⟩,
    ⟨some "H1.x", none, some "cn=rdp"⟩]
  hostGateway := [⟨some "h1.x", some "gw.x", none⟩] } }

def secondAccess : GatewayClicks := .groupform (fun k i => k == 0 && i == 1)

/-- Names of hosts are compared as the database compares them, and both rows for the host go. -/
theorem second_access_removed :
    ((handlePostOfHostAndGatewayDetails general .noOutage ⟨some "root@x",
      (secondAccess.form (.of gated.db)).parameters id⟩).run gated).2 =
      { gated with db := { gated.db with
        hostAccessGroup := [⟨none, some "ou=lab", some "cn=rdp"⟩] } } := by
  have contents : PlainGateways gated.db := by
    constructor <;> decide +kernel
  have named : secondAccess.Named (.of gated.db) := by
    change ∀ q ∈ flaggedRows (GatewayPage.of gated.db).hostaccessgroups (fun i => 0 == 0 && i == 1),
      ∀ c ∈ accessColumns q, c.get q ≠ none
    decide +kernel
  refine ((flagged_gateways_removed_iff general id root (some "root@x") (by decide +kernel) gated
    contents (.of gated.db) (by decide +kernel) secondAccess
    (fun _ _ _ => rfl)).mpr named).trans ?_
  decide +kernel

end GroupForms
