import Proconsul.Authority
import Proconsul.GroupForms

/-!
# POSIX attributes of users

`posixuser` has one row for each user, and new accounts of a user carry the
attributes in it. `generatePosixUser` with the template `posix_user.vm` shows the
table beside buttons to remove a row; a button empties the field with the number of
the user, and the handler takes an empty number for the flag.

The key is compared as the database compares text. Whether two users have the same
number is not considered.
-/

namespace PosixUsers

open Program Schema Text Surroundings Accounts Handlers Lifecycle Interleaving AdminConsole HostForms
  Listings GroupForms ConsoleWrites Authority Permanence

/-! ## The page -/

def readUsers (c : ConsoleCalls) : Run (List PosixRow) := do
  if c.connect then
    Prog.throwing (.runtimeException ("Failed getting DB connection: " ++ getMessage .sqlException))
  query (c.statement 0) .posixuser ["uid", "uidnumber", "gidnumber", "homedirectory", "loginshell"]
    Database.posixuser

def generatePosixUser (config : AdminConfig) (c : ConsoleCalls) (request : AdminRequest) :
    Run (View (List PosixRow)) :=
  generate (isPosixAdmin config request) (readUsers c)
    (fun e => .test ("Failed retrieving posix users: " ++ getMessage e))

def uidColumns : List (Column PosixRow) := [⟨"uname", fun r => some r.uid, "$puser.getEppn()"⟩]

/-- The number of the user is the flag: the button clears it. -/
def userLine (q : PosixRow) : Line where
  before := [("uname", rendered "$puser.getEppn()" (some q.uid))]
  flag := "uidnumber"
  kept := toString q.uidnumber
  raised := ""
  after := [("gidnumber", toString q.gidnumber),
    ("homedirectory", rendered "$puser.getHomedirectory()" q.homedirectory),
    ("loginshell", rendered "$puser.getLoginshell()" q.loginshell)]

def posixform (page : List PosixRow) : Listing where
  marker := "pformsubmitted"
  blocks := [page.map userLine]
  markerWordy := by decide
  wordsWordy := by
    intro b hb l hl
    obtain rfl := List.mem_singleton.mp hb
    obtain ⟨q, -, rfl⟩ := List.mem_map.mp hl
    change ∀ word ∈ ["uname", "uidnumber", "gidnumber", "homedirectory", "loginshell"],
      wordy word = true
    decide
  ownWords := by
    intro b hb l hl
    obtain rfl := List.mem_singleton.mp hb
    obtain ⟨q, -, rfl⟩ := List.mem_map.mp hl
    change ["uname", "uidnumber", "gidnumber", "homedirectory", "loginshell"].Nodup
    decide
  apart := List.pairwise_singleton _ _

def posixChosen (_ : Deletion) (field : String → Option String) (r : PosixRow) : Bool :=
  sqlEq (some r.uid) (field "uname")

def posixPart : Listings.Part PosixRow where
  rows := Database.posixuser
  put := fun db t => { db with posixuser := t }
  rows_put := fun _ _ => rfl
  put_put := fun _ _ _ => rfl
  put_rows := Eq.refl

theorem answered_posixform (page : List PosixRow) : (posixform page).Answered posixDeletions where
  flags := by
    rw [AdminConsole.Apart]
    decide
  known := by decide
  words := by
    change ∀ d ∈ posixDeletions, wordy d.flag = true ∧ d.flag ≠ "pformsubmitted"
    decide
  own := by
    intro d hd b hb l hl _
    obtain rfl := List.mem_singleton.mp hd
    obtain rfl := List.mem_singleton.mp hb
    obtain ⟨q, -, rfl⟩ := List.mem_map.mp hl
    exact ⟨rfl, rfl⟩

theorem shows_users (page : List PosixRow) :
    Shows posixDeletions (posixform page) 0 page userLine (fun _ => uidColumns) posixChosen where
  block := List.mem_cons_self
  carried := by
    intro q _ c hc
    obtain rfl := List.mem_singleton.mp hc
    exact List.mem_cons_self
  ruled := fun q _ => ⟨_, List.mem_cons_self, rfl⟩
  chooses := by
    intro d _ q _ _ field r
    simp [posixChosen, uidColumns]
  elsewhere := by
    intro d _ b k hb other
    exact absurd (only_block rfl hb) other

theorem run_readUsers (w : World) : (readUsers .noOutage).run w = (.ok w.db.posixuser, w) := rfl

/-! ## Numbers as text -/

theorem digit_not_special {ch : Char} (digit : ch.isDigit = true) : special ch = false := by
  have range : 48 ≤ ch.toNat ∧ ch.toNat ≤ 57 := by
    rw [Char.isDigit, Bool.and_eq_true, decide_eq_true_eq, decide_eq_true_eq] at digit
    exact ⟨UInt32.le_iff_toNat_le.mp digit.1, UInt32.le_iff_toNat_le.mp digit.2⟩
  rw [special, Bool.eq_false_iff]
  intro found
  rw [List.contains_iff_mem] at found
  simp only [List.mem_cons, List.not_mem_nil, or_false] at found
  omega

theorem plain_toString (n : Nat) : plain (toString n) = true := by
  rw [plain, List.all_eq_true]
  intro ch hch
  rw [digit_not_special (List.all_eq_true.mp (numeral_toString n) ch hch)]
  rfl

/-- A number is printed, with or without a sign, and never as an empty text. -/
theorem plain_number (n : Int) : plain (toString n) = true ∧ toString n ≠ "" := by
  cases n with
  | ofNat m => exact ⟨plain_toString m, toString_ne_empty m⟩
  | negSucc m =>
    have text : toString (Int.negSucc m) = "-" ++ toString (m + 1) := rfl
    rw [text]
    constructor
    · have digits := plain_toString (m + 1)
      rw [plain] at digits ⊢
      rw [String.toList_append, List.all_append, digits]
      decide
    · intro empty
      have none := congrArg String.toList empty
      rw [String.toList_append] at none
      cases none

/-! ## One row for each user -/

def Keyed (db : Database) : Prop := (db.posixuser.map (fun r => sqlKey r.uid)).Nodup

theorem sqlEq_uid {r q : PosixRow} :
    sqlEq (some r.uid) (some q.uid) = true ↔ sqlKey r.uid = sqlKey q.uid := beq_iff_eq

/-- The other panels leave the table alone. -/
theorem posixuser_remove_other {panel : Panel} (other : panel ≠ .posixUsers) {d : Deletion}
    (hd : d ∈ deletions panel) (field : String → Option String) (db : Database) :
    (d.remove field db).posixuser = db.posixuser := by
  cases panel with
  | posixUsers => exact absurd rfl other
  | hostAndGatewayDetails =>
    simp only [deletions, hostGroupDeletions, gatewayDeletions, List.cons_append, List.nil_append,
      List.mem_cons, List.not_mem_nil, or_false] at hd
    rcases hd with rfl | rfl | rfl <;> rfl
  | windowsUsers =>
    simp only [deletions, groupDeletions, List.mem_cons, List.not_mem_nil, or_false] at hd
    rcases hd with rfl | rfl | rfl <;> rfl
  | hostMgt =>
    simp only [deletions, hostDeletions, domainAdminHostDeletions, List.cons_append, List.nil_append,
      List.mem_cons, List.not_mem_nil, or_false] at hd
    rcases hd with rfl | rfl | rfl | rfl | rfl | rfl | rfl <;> rfl
  | accessControl =>
    simp only [deletions, loginDeletions, domainAdminDeletions, ruleDeletions, List.cons_append,
      List.nil_append, List.mem_cons, List.not_mem_nil, or_false] at hd
    rcases hd with rfl | rfl | rfl | rfl | rfl | rfl <;> rfl

theorem posixuser_remove {panel : Panel} {d : Deletion} (hd : d ∈ deletions panel)
    (field : String → Option String) (db : Database) :
    (d.remove field db).posixuser.Sublist db.posixuser := by
  by_cases own : panel = .posixUsers
  · subst own
    obtain rfl := List.mem_singleton.mp hd
    exact List.filter_sublist
  · rw [posixuser_remove_other own hd]

theorem keyed_of_write {p : Parameters} {panel : Panel} {db db' : Database}
    (written : Write p panel db db') (keyed : Keyed db) : Keyed db' := by
  cases written with
  | delete hd num => exact keyed.sublist ((posixuser_remove hd _ _).map _)
  | posix user free =>
    rename_i row
    unfold Keyed
    rw [List.map_append, List.nodup_append]
    refine ⟨keyed, List.nodup_singleton _, ?_⟩
    rintro key mem _ new rfl
    obtain ⟨r, hr, same⟩ := List.mem_map.mp mem
    obtain rfl := List.mem_singleton.mp new
    have taken := List.any_eq_false.mp free r hr
    exact taken (sqlEq_uid.mpr same)
  | hostAccess row => exact keyed
  | gateway row => exact keyed
  | explicitGroup rhs => exact keyed
  | groupGroup rhs => exact keyed
  | entitlementGroup rhs => exact keyed
  | explicitHost fqdn ou => exact keyed
  | groupHost fqdn ou => exact keyed
  | entitlementHost fqdn ou => exact keyed
  | domainAdminHost fqdn => exact keyed
  | userRule property type => exact keyed
  | groupRule given type free => exact keyed
  | entitlementRule given type free => exact keyed

/-- Whatever is requested of either application. -/
theorem steps_keyed {config : AdminConfig} {cfg : Config} {adbase : String}
    {Posted : Panel → AdminRequest → Prop} {p : Run Unit} (h : OnSite config cfg adbase Posted p) :
    p.Steps (fun w w' => Keyed w.db → Keyed w'.db) := by
  cases h with
  | served served =>
    refine Prog.steps_mono ?_ (Application.steps_served stands_admits served)
    intro w w' stands keyed
    have same : (standing w'.db).posixuser = (standing w.db).posixuser :=
      congrArg Database.posixuser stands.policy
    change Keyed (standing w'.db)
    rw [Keyed, same]
    exact keyed
  | posted c posted =>
    refine Application.steps_answered (Prog.steps_mono ?_ (steps_writes _ _ _ _))
    rintro w w' (rfl | ⟨db, written, rfl⟩) keyed
    · exact keyed
    · exact keyed_of_write written keyed

theorem keyed_reachable {config : AdminConfig} {cfg : Config} {adbase : String}
    {Posted : Panel → AdminRequest → Prop} {start : World} {P : Pool World Exn Unit}
    (reach : Reachable (OnSite config cfg adbase Posted) Docker (fun _ _ => True) start P)
    (keyed : Keyed start.db) : Keyed P.shared.db := by
  have moves : ∀ w w', Docker w w' → Keyed w.db → Keyed w'.db := by
    intro w w' moved
    cases moved <;> exact id
  have none : ∀ p ∈ (⟨start, []⟩ : Pool World Exn Unit).threads,
      p.Steps (fun w w' => Keyed w.db → Keyed w'.db) := by
    intro p hp
    cases hp
  have first : Continues (OnSite config cfg adbase Posted) Docker (fun _ _ => True)
      ⟨start, []⟩ P := reach
  exact (continues_steps (fun _ => steps_keyed) moves (fun _ => id)
    (fun _ _ _ first second => second ∘ first) none first).1 keyed

/-! ## Removing users through the page -/

/-- In the list of the panel, or a general administrator. -/
theorem run_isPosixAdmin {config : AdminConfig} {request : AdminRequest}
    (admin : empowered config request.remoteUser .posixUsers = true) (w : World) :
    (isPosixAdmin config request).run w = (.ok true, w) := by
  rcases Bool.or_eq_true_iff.mp admin with own | general
  · obtain ⟨names, given, found⟩ := (Option.any_eq_true _ _).mp own
    obtain ⟨user, known, -⟩ := (Option.any_eq_true _ _).mp found
    rw [isPosixAdmin, given]
    unfold isSubAdmin
    dsimp only
    rw [Prog.run_bind_ok (run_named known w), ← given, ← known, own]
    rfl
  · exact run_isSubAdmin _ general w

section Posting

variable {browser : String → String} (carries : ∀ v, plain v = true → browser v = v)
include carries

theorem legible_posixform (page : List PosixRow) : (posixform page).Legible browser := by
  intro b hb l hl
  obtain rfl := List.mem_singleton.mp hb
  obtain ⟨q, -, rfl⟩ := List.mem_map.mp hl
  obtain ⟨readable, visible⟩ := plain_number q.uidnumber
  change browser "" = "" ∧ browser (toString q.uidnumber) ≠ ""
  rw [carries "" (by decide), carries _ readable]
  exact ⟨rfl, visible⟩

theorem run_handlePostOfPosixUsers {config : AdminConfig} {user : Option String}
    (admin : empowered config user .posixUsers = true) (page : List PosixRow)
    (delete : Listing.Clicked) (w : World) :
    ((handlePostOfPosixUsers config .noOutage
        ⟨user, ((posixform page).form delete).parameters browser⟩).run w).2 =
      { w with
        db := (marked posixDeletions (((posixform page).form delete).parameters browser)).foldl
          (removeMarked (((posixform page).form delete).parameters browser)) w.db } := by
  have marker : submitted (((posixform page).form delete).parameters browser) "pformsubmitted" =
      true := submitted_marker carries ((posixform page).form delete)
  have form := run_deleteMarked (c := .noOutage) (((posixform page).form delete).parameters browser)
    (fun _ => rfl) (answered_posixform page).known w
  have connect : ∀ p, connected .noOutage (posixForms .noOutage p) = posixForms .noOutage p :=
    fun _ => rfl
  have gate : (isPosixAdmin config
      ⟨user, ((posixform page).form delete).parameters browser⟩).run w = (.ok true, w) :=
    run_isPosixAdmin admin w
  rw [handlePostOfPosixUsers, Prog.run_bind_ok gate, if_pos rfl, Prog.run_tryCatch, connect]
  dsimp only
  rw [posixForms, if_pos marker, Prog.run_bind_ok form]
  rfl

end Posting

theorem run_posixFor (au : AuthUser) (w : World) : (posixFor false (some au)).run w =
    (.ok ((w.db.posixuser.filter (fun r => sqlEq (some r.uid) au.uid)).getLast?), w) := rfl

/-- The table after a click, by rows and by keys. -/
theorem unflagged_eq {rows : List PosixRow} (keyed : (rows.map (fun r => sqlKey r.uid)).Nodup)
    (delete : Nat → Bool) :
    deleteWhere (fun r => (flaggedRows rows delete).any (fun q => equalBy uidColumns r q)) rows =
      flaggedRows rows (fun i => !delete i) := by
  refine deleteWhere_flagged keyed (fun r q => ?_) delete
  rw [← sqlEq_uid]
  simp [equalBy, uidColumns, same_some]

theorem removed_users {browser : String → String} (carries : ∀ v, plain v = true → browser v = v)
    {db : Database} (keyed : Keyed db) (contents : ∀ r ∈ db.posixuser, plain r.uid = true)
    (delete : Listing.Clicked) :
    (marked posixDeletions (((posixform db.posixuser).form delete).parameters browser)).foldl
        (removeMarked (((posixform db.posixuser).form delete).parameters browser)) db =
      { db with posixuser := flaggedRows db.posixuser (fun i => !delete 0 i) } := by
  have removes : ∀ d ∈ posixDeletions, ∀ field db', d.remove field db' =
      posixPart.put db' (deleteWhere (posixChosen d field) (posixPart.rows db')) := by
    intro d hd field db'
    obtain rfl := List.mem_singleton.mp hd
    rfl
  have plainRows : ∀ q ∈ db.posixuser, ∀ c ∈ uidColumns, (c.get q).all plain = true := by
    intro q hq c hc
    obtain rfl := List.mem_singleton.mp hc
    exact contents q hq
  have complete : ∀ q : PosixRow, ∀ c ∈ uidColumns, c.get q ≠ none := by
    intro q c hc
    obtain rfl := List.mem_singleton.mp hc
    exact Option.some_ne_none _
  have removed := (block_removed_iff carries posixPart removes (shows_users db.posixuser)
    (answered_posixform _) (legible_posixform carries _) plainRows
    (fun q _ c hc null => absurd null (complete q c hc)) delete).mpr (fun q _ => complete q)
  rw [removed]
  exact congrArg (posixPart.put db) (unflagged_eq keyed (delete 0))

/-- What remains of a user's rows. -/
theorem filter_unflagged {rows : List PosixRow} (keyed : (rows.map (fun r => sqlKey r.uid)).Nodup)
    (delete : Nat → Bool) (uid : Option String) :
    (flaggedRows rows (fun i => !delete i)).filter (fun r => sqlEq (some r.uid) uid) =
      if (flaggedRows rows delete).any (fun q => sqlEq (some q.uid) uid) then []
      else rows.filter (fun r => sqlEq (some r.uid) uid) := by
  rw [← unflagged_eq keyed]
  split
  · rename_i flagged
    obtain ⟨q, hq, theirs⟩ := List.any_eq_true.mp flagged
    rw [List.filter_eq_nil_iff]
    intro r hr found
    rw [mem_deleteWhere, List.any_eq_false] at hr
    refine hr.2 q hq ?_
    have same : sqlEq (some r.uid) (some q.uid) = true := sqlEq_trans found (sqlEq_symm theirs)
    simp [equalBy, uidColumns, same_some, same]
  · rename_i spared
    rw [Bool.not_eq_true, List.any_eq_false] at spared
    refine filter_deleteWhere (fun r gone => ?_)
    obtain ⟨q, hq, same⟩ := List.any_eq_true.mp gone
    have equal : sqlEq (some r.uid) (some q.uid) = true := by
      simpa [equalBy, uidColumns, same_some] using same
    rw [Bool.eq_false_iff]
    intro found
    exact spared q hq (sqlEq_trans (sqlEq_symm equal) found)

def posixConsole : AdminConfig := ⟨some "root@x", none, none, some "percy@x"⟩

def pats : PosixRow := ⟨"pat@dom.ain", -7, 100, none, some "/bin/sh"⟩

/-- Percy registers Ann. -/
def annRegistered : AdminRequest where
  remoteUser := some "percy@x"
  parameters := ⟨[("addformsubmitted", "1"), ("user", "ann@dom.ain"), ("uidnumber", "1001"),
    ("gidnumber", "+100"), ("homedirectory", "/home/ann"), ("loginshell", "/bin/sh")], by decide⟩

def withPat : World := { World.empty with db := { Database.empty with posixuser := [pats] } }

def percyPosts : Pool World Exn Unit :=
  (⟨withPat, [Application.answered (post posixConsole .noOutage annRegistered .posixUsers)]⟩ :
    Pool World Exn Unit).turn 0

def firstUser : Listing.Clicked := fun k i => k == 0 && i == 0

end PosixUsers
