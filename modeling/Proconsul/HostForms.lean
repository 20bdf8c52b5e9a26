import Mathlib.Data.List.Nodup
import Mathlib.Data.List.Flatten
import Proconsul.AdminConsole

/-!
# Removing host rules through the page that lists them

`generateHostManagement` collects the host rules, `host_mgt.vm` renders them as
two forms of hidden fields with a number for each row, and the removal branches
of `handlePostOfHostMgt` find the rows again by these numbers. The result
compares the rows that are deleted with the rows that were flagged.

The browser is a parameter: nothing is assumed of it but that it sends a value
of the form back as it was rendered when no character of it means something in
HTML.
A reference without a value is printed by the template as it is written there,
which is what becomes of a rule whose subject is null.
-/

namespace HostForms

open Program Schema Text Surroundings AdminConsole

/-! ## Forms with numbered fields -/

/-- An input whose name is a word and a number. -/
structure Field where
  word : String
  number : Nat
  value : String
  deriving DecidableEq, Repr

def Field.name (f : Field) : String := f.word ++ toString f.number

def Field.key (f : Field) : String × Nat := (f.word, f.number)

/-- A word has no digits. -/
def wordy (s : String) : Bool := s.toList.all (fun ch => !ch.isDigit)

/-- A marker field and numbered fields, none of them twice. -/
structure NumberedForm where
  marker : String
  fields : List Field
  markerWordy : wordy marker = true
  wordsWordy : ∀ f ∈ fields, wordy f.word = true
  distinct : (fields.map Field.key).Nodup

theorem numeral_toString (n : Nat) : numeral (toString n) = true := by
  rw [numeral, List.all_eq_true]
  intro ch mem
  rw [Nat.toString_eq_repr, Nat.toList_repr] at mem
  exact Nat.isDigit_of_mem_toDigits (by omega) (by omega) mem

theorem toString_injective {m n : Nat} (same : toString m = toString n) : m = n := by
  have digits : Nat.toDigits 10 m = Nat.toDigits 10 n := by
    rw [← Nat.toList_repr, ← Nat.toList_repr, ← Nat.toString_eq_repr, same, Nat.toString_eq_repr]
  simpa using congrArg (fun ds => Nat.ofDigitChars 10 ds 0) digits

theorem toString_ne_empty (n : Nat) : toString n ≠ "" := by
  intro empty
  have none : (toString n).toList = [] := by rw [empty]; rfl
  rw [Nat.toString_eq_repr, Nat.toList_repr] at none
  exact Nat.toDigits_ne_nil none

/-- A name has one decomposition into a word and a number. -/
theorem word_number_inj {a b m n : String} (ha : wordy a = true) (hb : wordy b = true)
    (hm : numeral m = true) (hn : numeral n = true) (same : a ++ m = b ++ n) : a = b ∧ m = n := by
  have front : ∀ {s t : String}, wordy s = true → numeral t = true →
      (s ++ t).toList.takeWhile (fun ch => !ch.isDigit) = s.toList := by
    intro s t hs ht
    rw [wordy, List.all_eq_true] at hs
    rw [numeral, List.all_eq_true] at ht
    rw [String.toList_append, List.takeWhile_append_of_pos hs]
    have stop : t.toList.takeWhile (fun ch => !ch.isDigit) = [] := by
      cases digits : t.toList with
      | nil => rfl
      | cons ch rest =>
        have digit : ch.isDigit = true := ht ch (by rw [digits]; exact List.mem_cons_self)
        simp [digit]
    rw [stop, List.append_nil]
  have words : a = b := by
    apply String.toList_injective
    rw [← front ha hm, same, front hb hn]
  subst words
  refine ⟨rfl, ?_⟩
  have chars := congrArg String.toList same
  rw [String.toList_append, String.toList_append] at chars
  exact String.toList_injective (List.append_cancel_left chars)

namespace NumberedForm

variable (form : NumberedForm) (browser : String → String)

def entries : List (String × String) :=
  (form.marker, browser "1") :: form.fields.map (fun f => (f.name, browser f.value))

theorem name_ne_word {f : Field} (wf : wordy f.word = true) {s : String} (ws : wordy s = true) :
    f.name ≠ s := by
  intro same
  have split : f.word ++ toString f.number = s ++ "" := by
    rw [String.append_empty]
    exact same
  obtain ⟨-, empty⟩ := word_number_inj wf ws (numeral_toString _) rfl split
  exact toString_ne_empty _ empty

theorem nodup_entries : ((form.entries browser).map Prod.fst).Nodup := by
  have names : (form.fields.map Field.name).Nodup := by
    rw [List.nodup_map_iff_inj_on (List.Nodup.of_map _ form.distinct)]
    intro f hf g hg same
    obtain ⟨word, number⟩ := word_number_inj (form.wordsWordy f hf) (form.wordsWordy g hg)
      (numeral_toString _) (numeral_toString _) same
    have keys : f.key = g.key := Prod.ext word (toString_injective number)
    exact List.inj_on_of_nodup_map form.distinct hf hg keys
  have marker : form.marker ∉ form.fields.map Field.name := by
    intro mem
    obtain ⟨f, hf, same⟩ := List.mem_map.mp mem
    exact name_ne_word (form.wordsWordy f hf) form.markerWordy same
  have fields : (form.fields.map (fun f => (f.name, browser f.value))).map Prod.fst =
      form.fields.map Field.name := by simp
  rw [entries, List.map_cons, fields]
  exact List.nodup_cons.mpr ⟨marker, names⟩

/-- What a submitted form sends. -/
def parameters : Parameters := ⟨form.entries browser, form.nodup_entries browser⟩

/-- The values that a form shows. -/
def values : List String := "1" :: form.fields.map Field.value

variable {browser} in
/-- What is sent depends on what the browser makes of the form's own values. -/
theorem parameters_congr {browser' : String → String}
    (same : ∀ v ∈ form.values, browser v = browser' v) :
    form.parameters browser = form.parameters browser' := by
  have marker : browser "1" = browser' "1" := same _ List.mem_cons_self
  have fields : form.fields.map (fun f => (f.name, browser f.value)) =
      form.fields.map (fun f => (f.name, browser' f.value)) := by
    refine List.map_congr_left (fun f hf => ?_)
    rw [same _ (List.mem_cons_of_mem _ (List.mem_map_of_mem hf))]
  have entries : form.entries browser = form.entries browser' := by
    rw [NumberedForm.entries, NumberedForm.entries, marker, fields]
  simp only [parameters, entries]

variable {form browser}

theorem getParameter_field {f : Field} (hf : f ∈ form.fields) :
    (form.parameters browser).getParameter (f.word ++ toString f.number) = some (browser f.value) :=
  getParameter_of_mem (List.mem_cons_of_mem _ (List.mem_map_of_mem hf))

/-- Apart from its marker a form sends no parameter that is named by a word. -/
theorem getParameter_word {s : String} (ws : wordy s = true) (other : s ≠ form.marker) :
    (form.parameters browser).getParameter s = none := by
  rw [Parameters.getParameter, Option.map_eq_none_iff, List.find?_eq_none]
  intro e mem
  rcases List.mem_cons.mp mem with rfl | mem
  · simpa using other.symm
  · obtain ⟨f, hf, rfl⟩ := List.mem_map.mp mem
    simpa using name_ne_word (form.wordsWordy f hf) ws

theorem mem_entries_iff {word num value : String} (ws : wordy word = true)
    (digits : numeral num = true) (other : word ≠ form.marker) :
    (word ++ num, value) ∈ (form.parameters browser).entries ↔
      ∃ f ∈ form.fields, f.word = word ∧ toString f.number = num ∧ browser f.value = value := by
  constructor
  · intro mem
    rcases List.mem_cons.mp mem with marker | mem
    · have same : word ++ num = form.marker ++ "" := by
        rw [String.append_empty]
        exact congrArg Prod.fst marker
      exact absurd (word_number_inj ws form.markerWordy digits rfl same).1 other
    · obtain ⟨f, hf, same⟩ := List.mem_map.mp mem
      obtain ⟨name, value⟩ := Prod.mk.inj same
      obtain ⟨word, number⟩ :=
        word_number_inj (form.wordsWordy f hf) ws (numeral_toString _) digits name
      exact ⟨f, hf, word, number, value⟩
  · rintro ⟨f, hf, rfl, rfl, rfl⟩
    exact List.mem_cons_of_mem _ (List.mem_map_of_mem hf)

end NumberedForm

/-! ## The page -/

/-- The lists that the page is rendered from. A mapping has a host or else an OU. -/
structure HostMgtPage where
  userhosts : List HostMapRow
  grouphosts : List HostMapRow
  entitlementhosts : List HostMapRow
  dahosts : List (Option String)
  deriving DecidableEq, Repr

inductive View where
  | hostMgt (page : HostMgtPage)
  | test (message : String)
  deriving DecidableEq, Repr

/-- `select subject,fqdn from t where fqdn is not null`. -/
def selectHosts (fails : Bool) (t : Table) (subject : String) (rows : Database → List HostMapRow) :
    Run (List HostMapRow) :=
  query fails t [subject, "fqdn"] (fun db =>
    ((rows db).filter (fun r => r.fqdn.isSome)).map (fun r => ⟨r.subject, r.fqdn, none⟩))

/-- `select subject,ou from t where ou is not null`. -/
def selectOus (fails : Bool) (t : Table) (subject : String) (rows : Database → List HostMapRow) :
    Run (List HostMapRow) :=
  query fails t [subject, "ou"] (fun db =>
    ((rows db).filter (fun r => r.ou.isSome)).map (fun r => ⟨r.subject, none, r.ou⟩))

/-- The body of the `try` block. -/
def readHosts (c : ConsoleCalls) : Run HostMgtPage := do
  if c.connect then Prog.throwing (.runtimeException "Failed in getPCAdminDBConnection()")
  let um ← selectHosts (c.statement 0) .explicitHosts "eppn" Database.explicitHosts
  let uo ← selectOus (c.statement 1) .explicitHosts "eppn" Database.explicitHosts
  let gm ← selectHosts (c.statement 2) .groupHost "groupurn" Database.groupHost
  let go ← selectOus (c.statement 3) .groupHost "groupurn" Database.groupHost
  let em ← selectHosts (c.statement 4) .entitlementHost "entitlement" Database.entitlementHost
  let eo ← selectOus (c.statement 5) .entitlementHost "entitlement" Database.entitlementHost
  let dahosts ← query (c.statement 6) .domainAdminHosts ["fqdn"] Database.domainAdminHosts
  return ⟨um ++ uo, gm ++ go, em ++ eo, dahosts⟩

def generateHostManagement (config : AdminConfig) (c : ConsoleCalls) (request : AdminRequest) :
    Run View := do
  if ← isTargetSystemAdmin config request then
    Prog.tryCatch (do return View.hostMgt (← readHosts c))
      (fun e => return View.test ("Error reading from DB: " ++ getMessage e))
  else return .test "You are not authorized to perform that operation."

/-! ## The template -/

/-- The three tables of mappings, one block of rows each. -/
inductive Block where
  | users | groups | entitlements
  deriving DecidableEq, Repr

def Block.rows (db : Database) : Block → List HostMapRow
  | .users => db.explicitHosts
  | .groups => db.groupHost
  | .entitlements => db.entitlementHost

def HostMgtPage.rows (page : HostMgtPage) : Block → List HostMapRow
  | .users => page.userhosts
  | .groups => page.grouphosts
  | .entitlements => page.entitlementhosts

/-- The names of a block's fields, and its references as they are written. -/
structure Labels where
  subject : String
  host : String
  ou : String
  subjectReference : String
  ouReference : String
  deriving DecidableEq, Repr

def Block.labels : Block → Labels
  | .users => ⟨"uname", "uhost", "uou", "$heppn.getEppn()", "$heppn.getOudn()"⟩
  | .groups => ⟨"hgrp", "ghost", "gou", "$hgrp.getGroupurn()", "$hgrp.getOudn()"⟩
  | .entitlements => ⟨"hent", "ehost", "eou", "$hent.getEntitlement()", "$hent.getOudn()"⟩

/-- A reference without a value prints as it is written. -/
def rendered (reference : String) (value : Option String) : String := value.getD reference

/-- The hidden fields beside a value: whether it is to be deleted and whether it was changed. -/
def valueFields (word : String) (pct : Nat) (delete : Bool) (value : String) : List Field :=
  [⟨"del" ++ word, pct, if delete then "1" else "0"⟩, ⟨"chg" ++ word, pct, "0"⟩, ⟨word, pct, value⟩]

/-- The fields of the row with the number `pct`. -/
def Labels.rowFields (l : Labels) (delete : Nat → Bool) (e : HostMapRow × Nat) : List Field :=
  ⟨l.subject, e.2, rendered l.subjectReference e.1.subject⟩ ::
    match e.1.fqdn with
    | some fqdn => valueFields l.host e.2 (delete e.2) fqdn
    | none => valueFields l.ou e.2 (delete e.2) (rendered l.ouReference e.1.ou)

def blockFields (page : HostMgtPage) (delete : Block → Nat → Bool) (b : Block) : List Field :=
  (page.rows b).zipIdx.flatMap (b.labels.rowFields (delete b))

def mappingFields (page : HostMgtPage) (delete : Block → Nat → Bool) : List Field :=
  [Block.users, .groups, .entitlements].flatMap (blockFields page delete)

def domainAdminFields (page : HostMgtPage) (delete : Nat → Bool) : List Field :=
  page.dahosts.zipIdx.flatMap (fun e => valueFields "dah" e.2 (delete e.2) (rendered "$dah" e.1))

/-! ## No name occurs twice -/

/-- Rows of numbered fields: a row's fields bear its number, and their words differ. -/
theorem nodup_numbered {α : Type} (rows : List α) {fields : α × Nat → List Field}
    (numbered : ∀ e, ∀ f ∈ fields e, f.number = e.2)
    (own : ∀ e, ((fields e).map Field.word).Nodup) :
    ((rows.zipIdx.flatMap fields).map Field.key).Nodup := by
  rw [List.map_flatMap, List.nodup_flatMap]
  constructor
  · intro e _
    have words : ((fields e).map Field.key).map Prod.fst = (fields e).map Field.word := by
      rw [List.map_map]
      rfl
    exact List.Nodup.of_map Prod.fst (words ▸ own e)
  · have numbers : rows.zipIdx.Pairwise (fun e e' => e.2 ≠ e'.2) := by
      rw [← List.pairwise_map (f := Prod.snd) (R := (· ≠ ·)), List.zipIdx_map_snd]
      exact List.nodup_range'
    refine numbers.imp ?_
    intro e e' differ key mem mem'
    obtain ⟨f, hf, rfl⟩ := List.mem_map.mp mem
    obtain ⟨g, hg, same⟩ := List.mem_map.mp mem'
    have number : g.number = f.number := congrArg Prod.snd same
    exact differ ((numbered e f hf).symm.trans (number.symm.trans (numbered e' g hg)))

theorem words_valueFields {word value : String} {pct : Nat} {delete : Bool} :
    (valueFields word pct delete value).map Field.word = ["del" ++ word, "chg" ++ word, word] := rfl

theorem number_valueFields {word value : String} {pct : Nat} {delete : Bool} {f : Field}
    (hf : f ∈ valueFields word pct delete value) : f.number = pct := by
  simp only [valueFields, List.mem_cons, List.not_mem_nil, or_false] at hf
  rcases hf with rfl | rfl | rfl <;> rfl

theorem number_rowFields {l : Labels} {delete : Nat → Bool} {e : HostMapRow × Nat} {f : Field}
    (hf : f ∈ l.rowFields delete e) : f.number = e.2 := by
  rw [Labels.rowFields, List.mem_cons] at hf
  rcases hf with rfl | hf
  · rfl
  · split at hf <;> exact number_valueFields hf

/-- The words that a block uses. -/
def Labels.words (l : Labels) : List String :=
  [l.subject, "del" ++ l.host, "chg" ++ l.host, l.host, "del" ++ l.ou, "chg" ++ l.ou, l.ou]

theorem word_rowFields {l : Labels} {delete : Nat → Bool} {e : HostMapRow × Nat} :
    ((l.rowFields delete e).map Field.word).Sublist l.words := by
  rw [Labels.rowFields, Labels.words]
  split
  · exact List.Sublist.cons_cons _ (List.sublist_append_left [_, _, _] _)
  · exact List.Sublist.cons_cons _ (List.sublist_append_right [_, _, _] [_, _, _])

theorem word_mem_block {page : HostMgtPage} {delete : Block → Nat → Bool} {b : Block} {f : Field}
    (hf : f ∈ blockFields page delete b) : f.word ∈ b.labels.words := by
  obtain ⟨e, -, hf⟩ := List.mem_flatMap.mp hf
  exact word_rowFields.subset (List.mem_map_of_mem hf)

theorem words_apart : ∀ b b' : Block, b ≠ b' → ∀ word ∈ b.labels.words, word ∉ b'.labels.words := by
  intro b b'
  cases b <;> cases b' <;> decide

theorem nodup_mappingFields (page : HostMgtPage) (delete : Block → Nat → Bool) :
    ((mappingFields page delete).map Field.key).Nodup := by
  rw [mappingFields, List.map_flatMap, List.nodup_flatMap]
  constructor
  · intro b _
    refine nodup_numbered _ (fun e f hf => number_rowFields hf) (fun e => ?_)
    refine List.Nodup.sublist word_rowFields ?_
    cases b <;> decide
  · have differ : [Block.users, .groups, .entitlements].Pairwise (· ≠ ·) := by decide
    refine differ.imp ?_
    intro b b' differ key mem mem'
    obtain ⟨f, hf, rfl⟩ := List.mem_map.mp mem
    obtain ⟨g, hg, same⟩ := List.mem_map.mp mem'
    have word : g.word = f.word := congrArg Prod.fst same
    exact words_apart b b' differ _ (word_mem_block hf) (word ▸ word_mem_block hg)

/-- The form named `accessform`. -/
def accessform (page : HostMgtPage) (delete : Block → Nat → Bool) : NumberedForm where
  marker := "accessformsubmitted"
  fields := mappingFields page delete
  markerWordy := by decide
  wordsWordy := by
    intro f hf
    obtain ⟨b, -, hf⟩ := List.mem_flatMap.mp hf
    have mem := word_mem_block hf
    revert mem
    generalize f.word = word
    revert word
    cases b <;> decide
  distinct := nodup_mappingFields page delete

/-- The form named `daform`. -/
def daform (page : HostMgtPage) (delete : Nat → Bool) : NumberedForm where
  marker := "daformsubmitted"
  fields := domainAdminFields page delete
  markerWordy := by decide
  wordsWordy := by
    intro f hf
    obtain ⟨e, -, hf⟩ := List.mem_flatMap.mp hf
    have mem : f.word ∈ ["del" ++ "dah", "chg" ++ "dah", "dah"] := List.mem_map_of_mem hf
    revert mem
    generalize f.word = word
    revert word
    decide
  distinct := nodup_numbered _ (fun _ _ hf => number_valueFields hf)
    (fun _ => by rw [words_valueFields]; decide)

/-! ## The deletion branches -/

/-- Whether a branch, or a row, is about a host or an OU. -/
inductive Target where
  | host | ou
  deriving DecidableEq, Repr

def Target.of (r : HostMapRow) : Target := if r.fqdn.isSome then .host else .ou

def Target.column : Target → HostMapRow → Option String
  | .host => HostMapRow.fqdn
  | .ou => HostMapRow.ou

def Block.word (b : Block) : Target → String
  | .host => b.labels.host
  | .ou => b.labels.ou

def Block.setRows (db : Database) (rows : List HostMapRow) : Block → Database
  | .users => { db with explicitHosts := rows }
  | .groups => { db with groupHost := rows }
  | .entitlements => { db with entitlementHost := rows }

/-- What a branch selects in its block. -/
def selects (b : Block) (t : Target) (field : String → Option String) (r : HostMapRow) : Bool :=
  sqlEq r.subject (field b.labels.subject) && sqlEq (t.column r) (field (b.word t))

theorem hostDeletions_spec {d : Deletion} (mem : d ∈ hostDeletions) :
    ∃ b t, d.flag = "del" ++ Block.word b t ∧ d.mark = "1" ∧
      d.table.knows d.columns = true ∧
      ∀ field db, d.remove field db = b.setRows db (deleteWhere (selects b t field) (b.rows db)) := by
  simp only [hostDeletions, List.mem_cons, List.not_mem_nil, or_false] at mem
  rcases mem with rfl | rfl | rfl | rfl | rfl | rfl
  · exact ⟨.users, .host, rfl, rfl, rfl, fun _ _ => rfl⟩
  · exact ⟨.users, .ou, rfl, rfl, rfl, fun _ _ => rfl⟩
  · exact ⟨.groups, .host, rfl, rfl, rfl, fun _ _ => rfl⟩
  · exact ⟨.groups, .ou, rfl, rfl, rfl, fun _ _ => rfl⟩
  · exact ⟨.entitlements, .host, rfl, rfl, rfl, fun _ _ => rfl⟩
  · exact ⟨.entitlements, .ou, rfl, rfl, rfl, fun _ _ => rfl⟩

theorem exists_hostDeletion (b : Block) (t : Target) :
    ∃ d ∈ hostDeletions, d.flag = "del" ++ b.word t ∧ d.mark = "1" := by
  cases b <;> cases t <;> simp [hostDeletions, Block.word, Block.labels]

theorem apart_hostDeletions : Apart hostDeletions := by
  rw [Apart]
  decide

/-- A flagged row deletes `r` from its block. -/
def drops (p : Parameters) (b : Block) (r : HostMapRow) (m : Deletion × String) : Bool :=
  [Target.host, .ou].any (fun t => m.1.flag == "del" ++ b.word t &&
    selects b t (fun name => p.getParameter (name ++ m.2)) r)

theorem drops_of_flag {p : Parameters} {b b' : Block} {t : Target} {r : HostMapRow}
    {m : Deletion × String} (flag : m.1.flag = "del" ++ b.word t) :
    drops p b' r m =
      (decide (b = b') && selects b t (fun name => p.getParameter (name ++ m.2)) r) := by
  rw [drops, flag]
  cases b <;> cases b' <;> cases t <;>
    simp [Block.word, Block.labels]

/-- The tables of mappings without the rows that are dropped. -/
def without (db : Database) (dropped : Block → HostMapRow → Bool) : Database :=
  { db with
    explicitHosts := deleteWhere (dropped .users) db.explicitHosts
    groupHost := deleteWhere (dropped .groups) db.groupHost
    entitlementHost := deleteWhere (dropped .entitlements) db.entitlementHost }

def withoutHosts (db : Database) (dropped : Option String → Bool) : Database :=
  { db with domainAdminHosts := deleteWhere dropped db.domainAdminHosts }

theorem foldl_removeMarked {p : Parameters} {marks : List (Deletion × String)} (db : Database)
    (rules : ∀ m ∈ marks, m.1 ∈ hostDeletions) :
    marks.foldl (removeMarked p) db = without db (fun b r => marks.any (drops p b r)) := by
  induction marks generalizing db with
  | nil => simp [without, deleteWhere]
  | cons m marks ih =>
    obtain ⟨b, t, flag, -, -, remove⟩ := hostDeletions_spec (rules m List.mem_cons_self)
    rw [List.foldl_cons, ih _ (fun m' hm => rules m' (List.mem_cons_of_mem m hm)), removeMarked,
      remove]
    simp only [List.any_cons, drops_of_flag flag]
    cases b <;> simp [without, Block.setRows, Block.rows, deleteWhere, List.filter_filter,
      Bool.and_comm]

/-! ## What a submitted form deletes -/

/-- The displayed rows whose flag the page has set. -/
def flaggedRows {α : Type} (rows : List α) (delete : Nat → Bool) : List α :=
  rows.zipIdx.filterMap (fun e => if delete e.2 then some e.1 else none)

theorem mem_flaggedRows {α : Type} {rows : List α} {delete : Nat → Bool} {q : α} :
    q ∈ flaggedRows rows delete ↔ ∃ i, (q, i) ∈ rows.zipIdx ∧ delete i = true := by
  simp only [flaggedRows, List.mem_filterMap, Prod.exists]
  constructor
  · rintro ⟨r, i, mem, chosen⟩
    split at chosen
    · rename_i flag
      cases chosen
      exact ⟨i, mem, flag⟩
    · cases chosen
  · rintro ⟨i, mem, flag⟩
    exact ⟨q, i, mem, by rw [if_pos flag]⟩

/-- Characters that a quoted attribute or a form does not carry as they are: markup, double quotes,
line breaks and NUL. -/
def special (ch : Char) : Bool := [0, 10, 13, 34, 38, 60, 62].contains ch.toNat

def plain (s : String) : Bool := s.toList.all (fun ch => !special ch)

/-- The browser, but with every plain value as it is. -/
def mended (browser : String → String) (v : String) : String := if plain v then v else browser v

theorem mended_plain (browser : String → String) (v : String) (hv : plain v = true) :
    mended browser v = v := if_pos hv

/-- A browser that sends the plain values of a form as they are is as good as a mended one. -/
theorem NumberedForm.parameters_mended {form : NumberedForm} {browser : String → String}
    (carries : ∀ v ∈ form.values, plain v = true → browser v = v) :
    form.parameters browser = form.parameters (mended browser) := by
  refine form.parameters_congr (fun v mem => ?_)
  rw [mended]
  split
  · rename_i hv
    exact carries v mem hv
  · rfl

/-- What a row is compared with: the fields of a flagged row, as the browser sends them. -/
def Matches (browser : String → String) (b : Block) (r q : HostMapRow) : Prop :=
  sqlEq r.subject (some (browser (rendered b.labels.subjectReference q.subject))) = true ∧
    sqlEq ((Target.of q).column r)
      (some (browser (rendered b.labels.ouReference ((Target.of q).column q)))) = true

section Browser

variable {browser : String → String} (carries : ∀ v, plain v = true → browser v = v)
  {page : HostMgtPage} {delete : Block → Nat → Bool}
include carries

theorem flag_value {flag : Bool} (one : browser (if flag then "1" else "0") = "1") : flag = true := by
  cases flag with
  | true => rfl
  | false =>
    rw [if_neg Bool.false_ne_true, carries "0" (by decide)] at one
    revert one
    decide

omit carries in
/-- Which fields of a row are flags. -/
theorem mem_rowFields_flag {b : Block} {delete : Nat → Bool} {e : HostMapRow × Nat} {t : Target}
    {f : Field} (hf : f ∈ b.labels.rowFields delete e) (word : f.word = "del" ++ b.word t) :
    t = Target.of e.1 ∧ f.value = if delete e.2 then "1" else "0" := by
  obtain ⟨⟨subject, fqdn, ou⟩, i⟩ := e
  obtain ⟨w, number, value⟩ := f
  cases fqdn <;> cases t <;> cases b <;>
    simp_all [Labels.rowFields, valueFields, Block.word, Block.labels, Target.of]

omit carries in
theorem mem_mappingFields {b : Block} {e : HostMapRow × Nat} (he : e ∈ (page.rows b).zipIdx)
    {f : Field} (hf : f ∈ b.labels.rowFields (delete b) e) : f ∈ mappingFields page delete := by
  refine List.mem_flatMap.mpr ⟨b, ?_, List.mem_flatMap.mpr ⟨e, he, hf⟩⟩
  cases b <;> decide

omit carries in
theorem mem_rowFields (b : Block) (delete : Nat → Bool) (q : HostMapRow) (i : Nat) :
    (⟨b.labels.subject, i, rendered b.labels.subjectReference q.subject⟩ : Field) ∈
        b.labels.rowFields delete (q, i) ∧
      (⟨"del" ++ b.word (Target.of q), i, if delete i then "1" else "0"⟩ : Field) ∈
        b.labels.rowFields delete (q, i) ∧
      (⟨b.word (Target.of q), i, rendered b.labels.ouReference ((Target.of q).column q)⟩ : Field) ∈
        b.labels.rowFields delete (q, i) := by
  obtain ⟨subject, fqdn, ou⟩ := q
  cases fqdn <;>
    simp [Labels.rowFields, valueFields, Target.of, Block.word, Target.column, rendered]

/-- The flags that the form sends are those of the page, branch by branch. -/
theorem mem_marked_accessform {d : Deletion} {num : String} {b : Block} {t : Target}
    (flag : d.flag = "del" ++ b.word t) :
    (d, num) ∈ marked hostDeletions ((accessform page delete).parameters browser) ↔
      d ∈ hostDeletions ∧ ∃ q i, (q, i) ∈ (page.rows b).zipIdx ∧ delete b i = true ∧
        t = Target.of q ∧ num = toString i := by
  have word : wordy ("del" ++ b.word t) = true := by cases b <;> cases t <;> decide
  have other : "del" ++ b.word t ≠ "accessformsubmitted" := by cases b <;> cases t <;> decide
  have own : "del" ++ b.word t ∈ b.labels.words := by cases b <;> cases t <;> decide
  rw [mem_marked apart_hostDeletions]
  refine and_congr_right (fun mem => ?_)
  obtain ⟨-, -, -, mark, -, -⟩ := hostDeletions_spec mem
  rw [flag, mark]
  constructor
  · rintro ⟨entry, digits⟩
    obtain ⟨f, hf, named, number, one⟩ :=
      (NumberedForm.mem_entries_iff word digits other).mp entry
    obtain ⟨b', -, hf⟩ := List.mem_flatMap.mp hf
    have here : b' = b := by
      by_contra elsewhere
      exact words_apart b' b elsewhere _ (word_mem_block hf) (named ▸ own)
    subst here
    obtain ⟨⟨q, i⟩, he, hf⟩ := List.mem_flatMap.mp hf
    obtain ⟨target, value⟩ := mem_rowFields_flag hf named
    rw [value] at one
    refine ⟨q, i, he, flag_value carries one, target, ?_⟩
    rw [← number, number_rowFields hf]
  · rintro ⟨q, i, he, set, rfl, rfl⟩
    have digits := numeral_toString i
    refine ⟨(NumberedForm.mem_entries_iff word digits other).mpr ?_, digits⟩
    refine ⟨_, mem_mappingFields he (mem_rowFields _ _ _ _).2.1, rfl, rfl, ?_⟩
    rw [if_pos set]
    exact carries "1" (by decide)

theorem dropped_iff (b : Block) (r : HostMapRow) :
    (marked hostDeletions ((accessform page delete).parameters browser)).any
        (drops ((accessform page delete).parameters browser) b r) = true ↔
      ∃ q ∈ flaggedRows (page.rows b) (delete b), Matches browser b r q := by
  have fields : ∀ q i, (q, i) ∈ (page.rows b).zipIdx →
      (selects b (Target.of q) (fun name => ((accessform page delete).parameters browser).getParameter
        (name ++ toString i)) r = true ↔ Matches browser b r q) := by
    intro q i he
    obtain ⟨subject, -, value⟩ := mem_rowFields b (delete b) q i
    have subjectSent : ((accessform page delete).parameters browser).getParameter _ = _ :=
      NumberedForm.getParameter_field (mem_mappingFields he subject)
    have valueSent : ((accessform page delete).parameters browser).getParameter _ = _ :=
      NumberedForm.getParameter_field (mem_mappingFields he value)
    rw [selects, subjectSent, valueSent, Bool.and_eq_true]
    exact Iff.rfl
  rw [List.any_eq_true]
  constructor
  · rintro ⟨⟨d, num⟩, hm, drop⟩
    have mem := ((mem_marked apart_hostDeletions).mp hm).1
    obtain ⟨b', t, flag, -⟩ := hostDeletions_spec mem
    rw [drops_of_flag flag, Bool.and_eq_true, decide_eq_true_eq] at drop
    obtain ⟨rfl, chosen⟩ := drop
    obtain ⟨-, q, i, he, set, rfl, rfl⟩ := (mem_marked_accessform carries flag).mp hm
    exact ⟨q, mem_flaggedRows.mpr ⟨i, he, set⟩, (fields q i he).mp chosen⟩
  · rintro ⟨q, hq, matched⟩
    obtain ⟨i, he, set⟩ := mem_flaggedRows.mp hq
    obtain ⟨d, mem, flag, -⟩ := exists_hostDeletion b (Target.of q)
    refine ⟨(d, toString i), (mem_marked_accessform carries flag).mpr ⟨mem, q, i, he, set,
      rfl, rfl⟩, ?_⟩
    rw [drops_of_flag flag, Bool.and_eq_true, decide_eq_true_eq]
    exact ⟨rfl, (fields q i he).mpr matched⟩

/-- The second form has one word, and one branch. -/
theorem mem_marked_daform {d : Deletion} {num : String} {delete : Nat → Bool} :
    (d, num) ∈ marked domainAdminHostDeletions ((daform page delete).parameters browser) ↔
      d ∈ domainAdminHostDeletions ∧
        ∃ h i, (h, i) ∈ page.dahosts.zipIdx ∧ delete i = true ∧ num = toString i := by
  have other : "deldah" ≠ "daformsubmitted" := by decide
  rw [mem_marked (by rw [Apart]; decide)]
  refine and_congr_right (fun mem => ?_)
  obtain rfl := List.mem_singleton.mp mem
  constructor
  · rintro ⟨entry, digits⟩
    obtain ⟨f, hf, named, number, one⟩ :=
      (NumberedForm.mem_entries_iff (by decide) digits other).mp entry
    obtain ⟨⟨h, i⟩, he, hf⟩ := List.mem_flatMap.mp hf
    have value : f.value = if delete i then "1" else "0" := by
      obtain ⟨w, n, v⟩ := f
      simp_all [valueFields]
    rw [value] at one
    refine ⟨h, i, he, flag_value carries one, ?_⟩
    rw [← number, number_valueFields hf]
  · rintro ⟨h, i, he, set, rfl⟩
    have digits := numeral_toString i
    refine ⟨(NumberedForm.mem_entries_iff (by decide) digits other).mpr ?_, digits⟩
    refine ⟨_, List.mem_flatMap.mpr ⟨_, he, List.mem_cons_self⟩, rfl, rfl, ?_⟩
    dsimp only
    rw [if_pos set]
    exact carries "1" (by decide)

theorem dropped_host_iff {delete : Nat → Bool} (fqdn : Option String) :
    (marked domainAdminHostDeletions ((daform page delete).parameters browser)).any (fun m =>
        sqlEq fqdn (((daform page delete).parameters browser).getParameter ("dah" ++ m.2))) = true ↔
      ∃ h ∈ flaggedRows page.dahosts delete,
        sqlEq fqdn (some (browser (rendered "$dah" h))) = true := by
  have sent : ∀ h i, (h, i) ∈ page.dahosts.zipIdx →
      ((daform page delete).parameters browser).getParameter ("dah" ++ toString i) =
        some (browser (rendered "$dah" h)) := by
    intro h i he
    have hf : (⟨"dah", i, rendered "$dah" h⟩ : Field) ∈ (daform page delete).fields :=
      List.mem_flatMap.mpr ⟨_, he, by simp [valueFields]⟩
    exact NumberedForm.getParameter_field hf
  rw [List.any_eq_true]
  constructor
  · rintro ⟨⟨d, num⟩, hm, drop⟩
    obtain ⟨-, h, i, he, set, rfl⟩ := (mem_marked_daform carries).mp hm
    rw [sent h i he] at drop
    exact ⟨h, mem_flaggedRows.mpr ⟨i, he, set⟩, drop⟩
  · rintro ⟨h, hh, drop⟩
    obtain ⟨i, he, set⟩ := mem_flaggedRows.mp hh
    refine ⟨(_, toString i), (mem_marked_daform carries).mpr
      ⟨List.mem_singleton_self _, h, i, he, set, rfl⟩, ?_⟩
    rw [sent h i he]
    exact drop

end Browser

/-! ## Requests -/

/-- In a list of their own, or a general administrator. -/
def entitled (config : AdminConfig) (user : Option String) : Bool :=
  listed config.targetsystemadmins user || listed config.pcadminlist user

theorem run_isTargetSystemAdmin {config : AdminConfig} {request : AdminRequest}
    (admin : entitled config request.remoteUser = true) (w : World) :
    (isTargetSystemAdmin config request).run w = (.ok true, w) := by
  rcases Bool.or_eq_true_iff.mp admin with own | general
  · obtain ⟨alist, given, found⟩ := (Option.any_eq_true _ _).mp own
    obtain ⟨user, known, -⟩ := (Option.any_eq_true _ _).mp found
    rw [isTargetSystemAdmin, given]
    unfold isSubAdmin
    dsimp only
    rw [Prog.run_bind_ok (run_named known w), ← given, ← known, own]
    rfl
  · exact run_isSubAdmin _ general w

theorem run_handlePostOfHostMgt {config : AdminConfig} {request : AdminRequest}
    (admin : entitled config request.remoteUser = true) {w w' : World}
    (form : (hostForms .noOutage request.parameters).run w = (.ok (), w')) :
    (handlePostOfHostMgt config .noOutage request).run w =
      (.ok (.redirect "/admin/host_mgt"), w') := by
  have connect : connected .noOutage (hostForms .noOutage request.parameters) =
      hostForms .noOutage request.parameters := rfl
  have update : (Prog.tryCatch (connected .noOutage (hostForms .noOutage request.parameters))
      failedUpdating).run w = (.ok (), w') := by
    rw [connect, Prog.run_tryCatch, form]
  rw [handlePostOfHostMgt, Prog.run_bind_ok (run_isTargetSystemAdmin admin w), if_pos rfl,
    Prog.run_bind_ok update]
  rfl

/-- The page for the present contents of the tables. -/
def pageOf (db : Database) : HostMgtPage :=
  let hosts (rows : List HostMapRow) : List HostMapRow :=
    (rows.filter (fun r => r.fqdn.isSome)).map (fun r => ⟨r.subject, r.fqdn, none⟩) ++
      (rows.filter (fun r => r.ou.isSome)).map (fun r => ⟨r.subject, none, r.ou⟩)
  ⟨hosts db.explicitHosts, hosts db.groupHost, hosts db.entitlementHost, db.domainAdminHosts⟩

/-- Whoever is shown the page is shown the present contents. -/
theorem page_eq {config : AdminConfig} {viewer : AdminRequest} {w : World} {page : HostMgtPage}
    (shown : ((generateHostManagement config .noOutage viewer).run w).1 = .ok (.hostMgt page)) :
    page = pageOf w.db := by
  have whole : (generateHostManagement config .noOutage viewer).run w =
      (.ok (.hostMgt page), ((generateHostManagement config .noOutage viewer).run w).2) :=
    Prod.ext shown rfl
  rw [generateHostManagement] at whole
  obtain ⟨admitted, -, rest⟩ := Prog.run_bind_reads (reads_isSubAdmin _ config viewer) whole
  cases admitted with
  | false =>
    have view := congrArg Prod.fst rest
    cases view
  | true =>
    have view : Except.ok (View.hostMgt (pageOf w.db)) = Except.ok (View.hostMgt page) :=
      congrArg Prod.fst rest
    cases view
    rfl

section Posting

variable {browser : String → String} (carries : ∀ v, plain v = true → browser v = v)
  (page : HostMgtPage) (w : World)
include carries

theorem submitted_marker (form : NumberedForm) :
    submitted (form.parameters browser) form.marker = true := by
  have sent : (form.parameters browser).getParameter form.marker = some (browser "1") :=
    getParameter_of_mem List.mem_cons_self
  rw [submitted, sent, carries "1" (by decide), beq_self_eq_true]

theorem run_accessform (delete : Block → Nat → Bool) :
    (hostForms .noOutage ((accessform page delete).parameters browser)).run w =
      (.ok (), { w with db := without w.db (fun b r =>
        (marked hostDeletions ((accessform page delete).parameters browser)).any
          (drops ((accessform page delete).parameters browser) b r)) }) := by
  have marker : submitted ((accessform page delete).parameters browser) "accessformsubmitted" =
      true := submitted_marker carries (accessform page delete)
  have known : ∀ d ∈ hostDeletions, d.table.knows d.columns = true := by
    intro d mem
    obtain ⟨-, -, -, -, known, -⟩ := hostDeletions_spec mem
    exact known
  have rules : ∀ m ∈ marked hostDeletions ((accessform page delete).parameters browser),
      m.1 ∈ hostDeletions := by
    rintro ⟨d, num⟩ hm
    exact ((mem_marked apart_hostDeletions).mp hm).1
  rw [hostForms, if_pos marker, run_deleteMarked _ (fun _ => rfl) known, foldl_removeMarked _ rules]

theorem run_daform (delete : Nat → Bool) :
    (hostForms .noOutage ((daform page delete).parameters browser)).run w =
      (.ok (), { w with db := withoutHosts w.db (fun fqdn =>
        (marked domainAdminHostDeletions ((daform page delete).parameters browser)).any (fun m =>
          sqlEq fqdn (((daform page delete).parameters browser).getParameter ("dah" ++ m.2)))) }) := by
  have absent : ∀ s, wordy s = true → s ≠ "daformsubmitted" →
      ¬ submitted ((daform page delete).parameters browser) s = true := by
    intro s word other
    have unsent : ((daform page delete).parameters browser).getParameter s = none :=
      NumberedForm.getParameter_word word other
    rw [submitted, unsent]
    decide
  have marker : submitted ((daform page delete).parameters browser) "daformsubmitted" = true :=
    submitted_marker carries (daform page delete)
  have known : ∀ d ∈ domainAdminHostDeletions, d.table.knows d.columns = true := by
    intro d mem
    obtain rfl := List.mem_singleton.mp mem
    rfl
  have rules : ∀ m ∈ marked domainAdminHostDeletions ((daform page delete).parameters browser),
      m.1 ∈ domainAdminHostDeletions := by
    rintro ⟨d, num⟩ hm
    exact ((mem_marked_daform carries).mp hm).1
  have fold : ∀ (marks : List (Deletion × String)) (db : Database),
      (∀ m ∈ marks, m.1 ∈ domainAdminHostDeletions) →
      marks.foldl (removeMarked ((daform page delete).parameters browser)) db =
        withoutHosts db (fun fqdn => marks.any (fun m =>
          sqlEq fqdn (((daform page delete).parameters browser).getParameter ("dah" ++ m.2)))) := by
    intro marks
    induction marks with
    | nil =>
      intro db _
      simp [withoutHosts, deleteWhere]
    | cons m marks ih =>
      intro db rules
      obtain ⟨d, num⟩ := m
      obtain rfl := List.mem_singleton.mp (rules _ List.mem_cons_self)
      rw [List.foldl_cons, ih _ (fun m hm => rules m (List.mem_cons_of_mem _ hm))]
      simp [withoutHosts, removeMarked, deleteWhere, List.filter_filter, Bool.and_comm]
  rw [hostForms, if_neg (absent "accessformsubmitted" (by decide) (by decide)),
    if_neg (absent "aformsubmitted" (by decide) (by decide)), if_pos marker,
    run_deleteMarked _ (fun _ => rfl) known, fold _ _ rules]

end Posting

/-! ## Clicks and rows -/

/-- The flags that the page sets in one of its two forms. -/
inductive Clicks where
  | mappings (delete : Block → Nat → Bool)
  | domainAdminHosts (delete : Nat → Bool)

def Clicks.form (page : HostMgtPage) : Clicks → NumberedForm
  | .mappings delete => accessform page delete
  | .domainAdminHosts delete => daform page delete

/-- Equal values, in the sense in which a null is equal to a null. -/
def same (a b : Option String) : Bool := sqlEq a b || (a.isNone && b.isNone)

def sameRow (r q : HostMapRow) : Bool :=
  same r.subject q.subject && same r.fqdn q.fqdn && same r.ou q.ou

/-- The database without the rows that are equal to a flagged one. -/
def Clicks.cleared (page : HostMgtPage) (db : Database) : Clicks → Database
  | .mappings delete => without db (fun b r => (flaggedRows (page.rows b) (delete b)).any (sameRow r))
  | .domainAdminHosts delete =>
    withoutHosts db (fun h => (flaggedRows page.dahosts delete).any (same h))

/-- No flagged row has a null where its subject, or its Domain Admin host, should be. -/
def Clicks.Named (page : HostMgtPage) : Clicks → Prop
  | .mappings delete => ∀ b, ∀ q ∈ flaggedRows (page.rows b) (delete b), q.subject ≠ none
  | .domainAdminHosts delete => ∀ h ∈ flaggedRows page.dahosts delete, h ≠ none

/-- Each mapping names a host or else an OU, and no value means anything in HTML. -/
structure Displayable (db : Database) : Prop where
  oneTarget : ∀ b, ∀ r ∈ Block.rows db b, r.ou.isSome = !r.fqdn.isSome
  plainRows : ∀ b, ∀ r ∈ Block.rows db b,
    r.subject.all plain = true ∧ r.fqdn.all plain = true ∧ r.ou.all plain = true
  plainHosts : ∀ h ∈ db.domainAdminHosts, h.all plain = true

theorem same_refl (a : Option String) : same a a = true := by
  cases a <;> simp [same]

theorem same_some (a : Option String) (v : String) : same a (some v) = sqlEq a (some v) := by
  simp [same]

theorem rows_without (db : Database) (dropped : Block → HostMapRow → Bool) (b : Block) :
    b.rows (without db dropped) = deleteWhere (dropped b) (b.rows db) := by
  cases b <;> rfl

theorem deleteWhere_congr {ρ : Type} {f g : ρ → Bool} {rows : List ρ}
    (agree : ∀ r ∈ rows, f r = g r) : deleteWhere f rows = deleteWhere g rows := by
  apply List.filter_congr
  intro r hr
  rw [agree r hr]

theorem without_congr {db : Database} {f g : Block → HostMapRow → Bool}
    (agree : ∀ b, ∀ r ∈ Block.rows db b, f b r = g b r) : without db f = without db g := by
  have users : deleteWhere (f .users) db.explicitHosts = deleteWhere (g .users) db.explicitHosts :=
    deleteWhere_congr (agree .users)
  have groups : deleteWhere (f .groups) db.groupHost = deleteWhere (g .groups) db.groupHost :=
    deleteWhere_congr (agree .groups)
  have entitlements : deleteWhere (f .entitlements) db.entitlementHost =
      deleteWhere (g .entitlements) db.entitlementHost := deleteWhere_congr (agree .entitlements)
  rw [without, without, users, groups, entitlements]

/-- With one target in each row, what is displayed is what the table holds. -/
theorem mem_of_displayed {db : Database} (contents : Displayable db) {b : Block} {q : HostMapRow}
    (hq : q ∈ (pageOf db).rows b) : q ∈ b.rows db := by
  have hosts : ∀ rows : List HostMapRow, (∀ r ∈ rows, r.ou.isSome = !r.fqdn.isSome) →
      q ∈ (rows.filter (fun r => r.fqdn.isSome)).map (fun r => ⟨r.subject, r.fqdn, none⟩) ++
        (rows.filter (fun r => r.ou.isSome)).map (fun r => ⟨r.subject, none, r.ou⟩) → q ∈ rows := by
    intro rows one mem
    rcases List.mem_append.mp mem with mem | mem
    · obtain ⟨r, hr, rfl⟩ := List.mem_map.mp mem
      obtain ⟨hr, host⟩ := List.mem_filter.mp hr
      have noOu : r.ou = none := by simpa [host] using one r hr
      rw [← noOu]
      exact hr
    · obtain ⟨r, hr, rfl⟩ := List.mem_map.mp mem
      obtain ⟨hr, ou⟩ := List.mem_filter.mp hr
      have noHost : r.fqdn = none := by simpa [ou] using one r hr
      rw [← noHost]
      exact hr
  cases b with
  | users => exact hosts _ (contents.oneTarget .users) hq
  | groups => exact hosts _ (contents.oneTarget .groups) hq
  | entitlements => exact hosts _ (contents.oneTarget .entitlements) hq

theorem mem_of_flagged {α : Type} {rows : List α} {delete : Nat → Bool} {q : α}
    (hq : q ∈ flaggedRows rows delete) : q ∈ rows := by
  obtain ⟨i, he, -⟩ := mem_flaggedRows.mp hq
  exact List.fst_mem_of_mem_zipIdx he

theorem sent_some {browser : String → String} (carries : ∀ v, plain v = true → browser v = v)
    {reference v : String} (hv : (some v).all plain = true) :
    browser (rendered reference (some v)) = v := carries v hv

/-- A flagged row with a subject matches the rows that are equal to it. -/
theorem matches_iff {browser : String → String} (carries : ∀ v, plain v = true → browser v = v)
    {db : Database} (contents : Displayable db) {b : Block} {r q : HostMapRow}
    (hr : r ∈ b.rows db) (hq : q ∈ b.rows db) (named : q.subject ≠ none) :
    Matches browser b r q ↔ sameRow r q = true := by
  have oneR := contents.oneTarget b r hr
  have oneQ := contents.oneTarget b q hq
  obtain ⟨plainSubject, plainHost, plainOu⟩ := contents.plainRows b q hq
  obtain ⟨subject, host, ou⟩ := q
  cases subject with
  | none => exact absurd rfl named
  | some subject =>
    cases host with
    | some host =>
      have noOu : ou = none := by simpa using oneQ
      subst noOu
      have other : sqlEq r.fqdn (some host) = true → r.ou = none := by
        intro found
        obtain ⟨x, -, hx, -⟩ := sqlEq_some found
        simpa [hx] using oneR
      simp only [Matches, Target.of, Option.isSome_some, if_true, Target.column, sameRow, same_some,
        sent_some carries plainSubject, sent_some carries plainHost, Bool.and_eq_true]
      constructor
      · rintro ⟨subject, found⟩
        refine ⟨⟨subject, found⟩, ?_⟩
        rw [other found]
        rfl
      · rintro ⟨both, -⟩
        exact both
    | none =>
      obtain ⟨ou, rfl⟩ : ∃ v, ou = some v := Option.isSome_iff_exists.mp (by simpa using oneQ)
      have other : sqlEq r.ou (some ou) = true → r.fqdn = none := by
        intro found
        obtain ⟨x, -, hx, -⟩ := sqlEq_some found
        simpa [hx] using oneR
      simp only [Matches, Target.of, Option.isSome_none, Bool.false_eq_true, if_false,
        Target.column, sameRow, same_some, sent_some carries plainSubject,
        sent_some carries plainOu, Bool.and_eq_true]
      constructor
      · rintro ⟨subject, found⟩
        refine ⟨⟨subject, ?_⟩, found⟩
        rw [other found]
        rfl
      · rintro ⟨⟨subject, -⟩, found⟩
        exact ⟨subject, found⟩

section Removed

variable {browser : String → String} (carries : ∀ v, plain v = true → browser v = v)
  {db : Database} (contents : Displayable db)
include carries contents

theorem mappings_removed_iff (delete : Block → Nat → Bool) :
    without db (fun b r =>
        (marked hostDeletions ((accessform (pageOf db) delete).parameters browser)).any
          (drops ((accessform (pageOf db) delete).parameters browser) b r)) =
        Clicks.cleared (pageOf db) db (.mappings delete) ↔
      Clicks.Named (pageOf db) (.mappings delete) := by
  constructor
  · intro equal b q hq null
    have there : q ∈ b.rows db := mem_of_displayed contents (mem_of_flagged hq)
    -- the subject that was sent is not null, so that the row itself is not selected
    have kept : q ∈ b.rows (without db (fun b r =>
        (marked hostDeletions ((accessform (pageOf db) delete).parameters browser)).any
          (drops ((accessform (pageOf db) delete).parameters browser) b r))) := by
      rw [rows_without, mem_deleteWhere, Bool.eq_false_iff, Ne, dropped_iff carries]
      refine ⟨there, ?_⟩
      rintro ⟨q', -, subject, -⟩
      rw [null] at subject
      cases subject
    rw [equal, Clicks.cleared, rows_without, mem_deleteWhere] at kept
    have flagged : (flaggedRows ((pageOf db).rows b) (delete b)).any (sameRow q) = true :=
      List.any_eq_true.mpr ⟨q, hq, by simp [sameRow, same_refl]⟩
    rw [flagged] at kept
    cases kept.2
  · intro named
    rw [Clicks.cleared]
    refine without_congr (fun b r hr => ?_)
    rw [Bool.eq_iff_iff, dropped_iff carries, List.any_eq_true]
    refine exists_congr (fun q => and_congr_right (fun hq => ?_))
    exact matches_iff carries contents hr (mem_of_displayed contents (mem_of_flagged hq))
      (named b q hq)

theorem hosts_removed_iff (delete : Nat → Bool) :
    withoutHosts db (fun fqdn =>
        (marked domainAdminHostDeletions ((daform (pageOf db) delete).parameters browser)).any
          (fun m => sqlEq fqdn
            (((daform (pageOf db) delete).parameters browser).getParameter ("dah" ++ m.2)))) =
        Clicks.cleared (pageOf db) db (.domainAdminHosts delete) ↔
      Clicks.Named (pageOf db) (.domainAdminHosts delete) := by
  constructor
  · rintro equal h hh rfl
    have there : none ∈ db.domainAdminHosts := mem_of_flagged hh
    have kept : none ∈ (withoutHosts db (fun fqdn =>
        (marked domainAdminHostDeletions ((daform (pageOf db) delete).parameters browser)).any
          (fun m => sqlEq fqdn
            (((daform (pageOf db) delete).parameters browser).getParameter
              ("dah" ++ m.2))))).domainAdminHosts := by
      rw [withoutHosts, mem_deleteWhere, Bool.eq_false_iff, Ne, dropped_host_iff carries]
      refine ⟨there, ?_⟩
      rintro ⟨h, -, found⟩
      cases found
    rw [equal, Clicks.cleared, withoutHosts, mem_deleteWhere] at kept
    have flagged : (flaggedRows (pageOf db).dahosts delete).any (same none) = true :=
      List.any_eq_true.mpr ⟨none, hh, same_refl none⟩
    rw [flagged] at kept
    cases kept.2
  · intro named
    rw [Clicks.cleared, withoutHosts, withoutHosts, deleteWhere_congr]
    intro fqdn _
    rw [Bool.eq_iff_iff, dropped_host_iff carries, List.any_eq_true]
    refine exists_congr (fun h => and_congr_right (fun hh => ?_))
    have there : h ∈ db.domainAdminHosts := mem_of_flagged hh
    obtain ⟨v, rfl⟩ := Option.ne_none_iff_exists'.mp (named h hh)
    rw [sent_some carries (contents.plainHosts _ there), same_some]

end Removed

/-- Submitting the form that the page renders deletes the rows that are equal to a flagged row, and
changes nothing else, if and only if no flagged row lacks its subject. -/
theorem flagged_rows_removed_iff (config : AdminConfig) (browser : String → String)
    (viewer : AdminRequest) (user : Option String) (admin : entitled config user = true) (w : World)
    (contents : Displayable w.db) (page : HostMgtPage)
    (shown : ((generateHostManagement config .noOutage viewer).run w).1 = .ok (.hostMgt page))
    (clicks : Clicks)
    (carries : ∀ v ∈ (clicks.form page).values, plain v = true → browser v = v) :
    ((handlePostOfHostMgt config .noOutage ⟨user, (clicks.form page).parameters browser⟩).run w).2 =
        { w with db := clicks.cleared page w.db } ↔
      clicks.Named page := by
  have onlyDb : ∀ db db' : Database, ({ w with db := db } : World) = { w with db := db' } ↔
      db = db' := by
    intro db db'
    constructor
    · exact congrArg World.db
    · rintro rfl
      rfl
  obtain rfl := page_eq shown
  have mends := mended_plain browser
  rw [NumberedForm.parameters_mended carries]
  cases clicks with
  | mappings delete =>
    rw [Clicks.form, run_handlePostOfHostMgt admin (run_accessform mends _ w delete), onlyDb]
    exact mappings_removed_iff mends contents delete
  | domainAdminHosts delete =>
    rw [Clicks.form, run_handlePostOfHostMgt admin (run_daform mends _ w delete), onlyDb]
    exact hosts_removed_iff mends contents delete

def console : AdminConfig := ⟨some "root@x", none, some "tess@x", none⟩

def tess : AdminRequest := ⟨some "tess@x", ⟨[], by decide⟩⟩

/-- Two rules for one user, and the same subject in another table. -/
def mapped : World := { World.empty with db := { Database.empty with
  explicitHosts := [⟨some "ann@x", some "h1.x", none⟩, ⟨some "Ann@x", none, some "ou=lab"⟩]
  groupHost := [⟨some "ann@x", none, some "ou=lab"⟩] } }

/-- The row with the number 1 in the first block. -/
def secondOfUsers : Clicks := .mappings (fun b i => b == .users && i == 1)

theorem second_mapping_removed :
    ((handlePostOfHostMgt console .noOutage ⟨some "tess@x",
      (secondOfUsers.form (pageOf mapped.db)).parameters id⟩).run mapped).2 =
      { mapped with db := { mapped.db with
        explicitHosts := [⟨some "ann@x", some "h1.x", none⟩] } } := by
  have contents : Displayable mapped.db := by
    constructor
    · intro b
      cases b <;> decide
    · intro b
      cases b <;> decide +kernel
    · decide
  have named : secondOfUsers.Named (pageOf mapped.db) := by
    intro b
    cases b <;> decide +kernel
  refine ((flagged_rows_removed_iff console id tess (some "tess@x") (by decide +kernel) mapped
    contents (pageOf mapped.db) (by decide +kernel) secondOfUsers
    (fun _ _ _ => rfl)).mpr named).trans ?_
  decide +kernel

/-- A rule without a subject: the `lhs` field was missing when it was added. -/
def nameless : World := { World.empty with db := { Database.empty with
  explicitHosts := [⟨none, some "h1.x", none⟩] } }

def firstOfUsers : Clicks := .mappings (fun b i => b == .users && i == 0)

/-- The form carries the text of the reference instead of a subject, and nothing is deleted. -/
theorem nameless_mapping_stays :
    Displayable nameless.db ∧
    ((generateHostManagement console .noOutage tess).run nameless).1 =
      .ok (.hostMgt (pageOf nameless.db)) ∧
    ((handlePostOfHostMgt console .noOutage ⟨some "tess@x",
      (firstOfUsers.form (pageOf nameless.db)).parameters id⟩).run nameless).2 ≠
      { nameless with db := firstOfUsers.cleared (pageOf nameless.db) nameless.db } := by
  have contents : Displayable nameless.db := by
    constructor
    · intro b
      cases b <;> decide
    · intro b
      cases b <;> decide +kernel
    · decide
  exact ⟨contents, by decide +kernel⟩

end HostForms
