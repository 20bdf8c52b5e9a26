import Mathlib.Data.List.Basic
import Mathlib.Data.List.Infix

/-!
# Strings as the surrounding systems compare and cut them

The program hands the same strings to three comparison rules: exact equality
in Java, the collation of the tables (latin1_swedish_ci, which ignores case,
most accents and trailing blanks), and the directory's case-insensitive names.
Case folding covers the letters of ISO-8859-1, the character set of the tables.
-/

namespace Text

/-- A null reference prints as `null` in a Java concatenation. -/
def javaString (s : Option String) : String := s.getD "null"

/-- `Character.toUpperCase` and `upper()`. The last two letters have no capital in ISO-8859-1. -/
def upper (c : Char) : Char :=
  if 'à' ≤ c ∧ c ≤ 'þ' ∧ c ≠ '÷' then Char.ofNat (c.toNat - 32) else c.toUpper

def lower (c : Char) : Char :=
  if 'À' ≤ c ∧ c ≤ 'Þ' ∧ c ≠ '×' then Char.ofNat (c.toNat + 32) else c.toLower

def foldCase (s : String) : List Char := s.toList.map upper

def equalsIgnoreCase (a b : String) : Bool := foldCase a == foldCase b

def toLowerCase (s : String) : String := String.ofList (s.toList.map lower)

/-- The capitals that latin1_swedish_ci takes for another character. Three weigh as much as the
brackets whose place they had in the Swedish character set of seven bits. -/
def sharedWeights : List (Char × Char) :=
  [('À', 'A'), ('Á', 'A'), ('Â', 'A'), ('Ã', 'A'), ('Ä', '\\'), ('Å', '['), ('Æ', '\\'), ('Ç', 'C'),
    ('È', 'E'), ('É', 'E'), ('Ê', 'E'), ('Ë', 'E'), ('Ì', 'I'), ('Í', 'I'), ('Î', 'I'), ('Ï', 'I'),
    ('Ð', 'D'), ('Ñ', 'N'), ('Ò', 'O'), ('Ó', 'O'), ('Ô', 'O'), ('Õ', 'O'), ('Ö', ']'), ('Ù', 'U'),
    ('Ú', 'U'), ('Û', 'U'), ('Ü', 'Y'), ('Ý', 'Y')]

/-- The weight of a capital. -/
def weight (c : Char) : Char := if 'À' ≤ c then (sharedWeights.lookup c).getD c else c

/-- Sorting key of the collation: case, accents and trailing blanks do not count. -/
def sqlKey (s : String) : List Char :=
  ((foldCase s).reverse.dropWhile (· == ' ')).reverse.map weight

/-- SQL `=` on nullable columns and parameters: a null is equal to nothing. -/
def sqlEq : Option String → Option String → Bool
  | some a, some b => sqlKey a == sqlKey b
  | _, _ => false

/-- Account names and host names, as the directory compares them. -/
def nameEq (a b : String) : Bool := foldCase a == foldCase b

/-! ## Distinguished names -/

inductive DnPart where
  | separator (c : Char)
  | blank
  | literal (c : Char)
  deriving DecidableEq, Repr

def hexDigit (c : Char) : Option Nat :=
  if '0' ≤ c ∧ c ≤ '9' then some (c.toNat - 48)
  else if 'A' ≤ c ∧ c ≤ 'F' then some (c.toNat - 55)
  else none

/-- Where the reading of a name has come to in a component. -/
inductive DnPlace where
  | type
  | before
  | value
  | quoted
  deriving DecidableEq, Repr

/-- After a character that is no blank. -/
def DnPlace.inside : DnPlace → DnPlace
  | .before => .value
  | place => place

/-- Reading a name in capitals. After a backslash a character, or the one that two hexadecimal
digits stand for, belongs to the value, and so does what stands between quotes (34). The first `=`
of a component ends its type. -/
def dnParts (place : DnPlace) : List Char → List DnPart
  | [] => []
  | '\\' :: a :: b :: rest =>
    match hexDigit a, hexDigit b with
    | some x, some y => .literal (upper (Char.ofNat (16 * x + y))) :: dnParts place.inside rest
    | _, _ => .literal a :: dnParts place.inside (b :: rest)
  | ['\\', a] => [.literal a]
  | c :: rest =>
    if place = .quoted then
      if c.toNat = 34 then dnParts .value rest else .literal c :: dnParts .quoted rest
    else if c.toNat = 34 ∧ place = .before then dnParts .quoted rest
    else if c = ',' ∨ c = ';' then .separator ',' :: dnParts .type rest
    else if c = '+' then .separator '+' :: dnParts .type rest
    else if c = '=' ∧ place = .type then .separator '=' :: dnParts .before rest
    else if c = ' ' then .blank :: dnParts place rest
    else .literal c :: dnParts place.inside rest

/-- Blanks before and after a separator do not count. -/
def joinPart (p : DnPart) (rest : List DnPart) : List DnPart :=
  match p, rest with
  | .separator c, rest => .separator c :: rest.dropWhile (· = .blank)
  | .blank, [] => []
  | .blank, .separator c :: rest => .separator c :: rest
  | p, rest => p :: rest

/-- What is inside a value stays, whether it was escaped or not. -/
def dnKey (s : String) : List DnPart :=
  (((dnParts .type (foldCase s)).foldr joinPart []).dropWhile (· = .blank)).map
    (fun p => if p = .blank then .literal ' ' else p)

/-- Distinguished names, as the directory compares them. The types have their short names. -/
def dnEq (a b : String) : Bool := dnKey a == dnKey b

/-! ## Filters -/

inductive FilterPart where
  | any
  | literal (c : Char)
  deriving DecidableEq, Repr

/-- Reading the value of an LDAP filter. After a backslash stand two hexadecimal digits, or a
character that is meant literally; one digit alone is an error. -/
def filterParts : List Char → Option (List FilterPart)
  | [] => some []
  | '*' :: rest => (filterParts rest).map (.any :: ·)
  | '\\' :: a :: b :: rest =>
    match hexDigit (upper a), hexDigit (upper b) with
    | some x, some y => (filterParts rest).map (.literal (Char.ofNat (16 * x + y)) :: ·)
    | some _, none => none
    | none, _ => (filterParts (b :: rest)).map (.literal a :: ·)
  | ['\\', a] => if (hexDigit (upper a)).isNone then some [.literal a] else none
  | c :: rest => (filterParts rest).map (.literal c :: ·)

def filterMatches : List FilterPart → List Char → Bool
  | [], text => text.isEmpty
  | .any :: parts, text => text.tails.any (filterMatches parts)
  | .literal c :: parts, text =>
    match text with
    | [] => false
    | d :: rest => upper c == d && filterMatches parts rest

/-- A search for a name, which is pasted into the filter as it is. -/
def finds (name value : String) : Bool :=
  nameEq value name || (filterParts name.toList).any (fun parts => filterMatches parts (foldCase value))

/-! ## Cutting and filtering -/

/-- `replaceAll("[^...]", "")`: delete every character outside the class. -/
def keepOnly (allowed : Char → Bool) (s : String) : String :=
  String.ofList (s.toList.filter allowed)

def containsChar (s : String) (c : Char) : Bool := s.toList.contains c

/-- `replaceAll("[c]", with)` for single characters. -/
def replaceChar (c d : Char) (s : String) : String :=
  String.ofList (s.toList.map (fun x => if x = c then d else x))

/-- `String.split` on one character. Without a match the whole string is the
only part; otherwise trailing empty parts are dropped. -/
def javaSplit (sep : Char) (s : String) : List String :=
  if containsChar s sep then
    ((((s.toList.splitOn sep).reverse.dropWhile List.isEmpty).reverse).map String.ofList)
  else [s]

/-- `replaceFirst("[^,]*,", "")`: drop everything up to the first comma. -/
def dropComponent (s : String) : String :=
  if containsChar s ',' then
    String.ofList ((s.toList.dropWhile (· != ',')).drop 1)
  else s

/-- The code units of a Java string. -/
@[irreducible] def utf16 (s : String) : List Nat :=
  s.toList.flatMap (fun c =>
    if c.toNat < 0x10000 then [c.toNat]
    else [0xD800 + (c.toNat - 0x10000) / 0x400, 0xDC00 + (c.toNat - 0x10000) % 0x400])

/-- The characters that end a line for `.` in a regular expression. -/
def lineEnd (c : Char) : Bool := ['\n', '\r', '\u0085', '\u2028', '\u2029'].contains c

/-- `LIKE` on already folded text; what is neither wildcard nor escape is compared by weight. -/
def like : List Char → List Char → Bool
  | [], text => text.isEmpty
  | '%' :: pattern, text => text.tails.any (like pattern)
  | '_' :: pattern, text =>
    match text with
    | [] => false
    | _ :: rest => like pattern rest
  | '\\' :: c :: pattern, text =>
    match text with
    | [] => false
    | d :: rest => weight c == weight d && like pattern rest
  | c :: pattern, text =>
    match text with
    | [] => false
    | d :: rest => weight c == weight d && like pattern rest

/-! ## Comparison laws -/

theorem sqlEq_some {a b : Option String} (h : sqlEq a b = true) :
    ∃ x y, a = some x ∧ b = some y ∧ sqlKey x = sqlKey y := by
  cases a with
  | none => cases h
  | some x =>
    cases b with
    | none => cases h
    | some y => exact ⟨x, y, rfl, rfl, beq_iff_eq.mp h⟩

@[simp] theorem sqlEq_refl (a : String) : sqlEq (some a) (some a) = true :=
  beq_self_eq_true (sqlKey a)

theorem sqlEq_symm {a b : Option String} (h : sqlEq a b = true) : sqlEq b a = true := by
  obtain ⟨x, y, rfl, rfl, hk⟩ := sqlEq_some h
  exact beq_iff_eq.mpr hk.symm

theorem sqlEq_trans {a b c : Option String} (hab : sqlEq a b = true)
    (hbc : sqlEq b c = true) : sqlEq a c = true := by
  obtain ⟨x, y, rfl, rfl, hxy⟩ := sqlEq_some hab
  obtain ⟨y', z, hy, rfl, hyz⟩ := sqlEq_some hbc
  cases hy
  exact beq_iff_eq.mpr (hxy.trans hyz)

/-- Columns equal to one another match the same parameters. -/
theorem sqlEq_congr_right {b c : Option String} (hbc : sqlEq b c = true) (a : Option String) :
    sqlEq a b = sqlEq a c := by
  rw [Bool.eq_iff_iff]
  exact ⟨fun h => sqlEq_trans h hbc, fun h => sqlEq_trans h (sqlEq_symm hbc)⟩

theorem foldCase_append (s t : String) : foldCase (s ++ t) = foldCase s ++ foldCase t := by
  simp [foldCase]

@[simp] theorem nameEq_refl (a : String) : nameEq a a = true := beq_self_eq_true (foldCase a)

theorem nameEq_symm {a b : String} (h : nameEq a b = true) : nameEq b a = true :=
  beq_iff_eq.mpr (beq_iff_eq.mp h).symm

theorem nameEq_trans {a b c : String} (hab : nameEq a b = true) (hbc : nameEq b c = true) :
    nameEq a c = true :=
  beq_iff_eq.mpr ((beq_iff_eq.mp hab).trans (beq_iff_eq.mp hbc))

theorem dnKey_congr {a b : String} (h : foldCase a = foldCase b) : dnKey a = dnKey b := by
  rw [dnKey, dnKey, h]

@[simp] theorem dnEq_refl (a : String) : dnEq a a = true := beq_self_eq_true (dnKey a)

theorem dnEq_symm {a b : String} (h : dnEq a b = true) : dnEq b a = true :=
  beq_iff_eq.mpr (beq_iff_eq.mp h).symm

theorem dnEq_trans {a b c : String} (hab : dnEq a b = true) (hbc : dnEq b c = true) :
    dnEq a c = true :=
  beq_iff_eq.mpr ((beq_iff_eq.mp hab).trans (beq_iff_eq.mp hbc))

/-- Raising a letter never yields a character before the capital letters. -/
theorem toNat_toUpper (c : Char) :
    c.toUpper.toNat = if 97 ≤ c.toNat ∧ c.toNat ≤ 122 then c.toNat - 32 else c.toNat := by
  change (if _ : 'a'.val ≤ c.val ∧ c.val ≤ 'z'.val then
    (⟨c.val + ('A'.val - 'a'.val), _⟩ : Char) else c).toNat = _
  split
  · rename_i letter
    have least : 97 ≤ c.toNat := UInt32.le_iff_toNat_le.mp letter.1
    have greatest : c.toNat ≤ 122 := UInt32.le_iff_toNat_le.mp letter.2
    rw [if_pos ⟨least, greatest⟩]
    simp only [Char.toNat, UInt32.toNat_add, UInt32.reduceToNat, Char.reduceVal, UInt32.reduceSub]
      at least greatest ⊢
    omega
  · rename_i other
    rw [if_neg (fun letter => other ⟨UInt32.le_iff_toNat_le.mpr letter.1,
      UInt32.le_iff_toNat_le.mpr letter.2⟩)]

/-- Capitals have smaller numbers, but none below the letters. -/
theorem toNat_upper (c : Char) : (upper c).toNat =
    if (97 ≤ c.toNat ∧ c.toNat ≤ 122) ∨ (224 ≤ c.toNat ∧ c.toNat ≤ 254 ∧ c.toNat ≠ 247) then
      c.toNat - 32 else c.toNat := by
  have division : c = '÷' ↔ c.toNat = 247 := Char.toNat_inj.symm
  rw [upper]
  split
  · rename_i accented
    obtain ⟨least, greatest, other⟩ := accented
    have from224 : 224 ≤ c.toNat := Char.le_def.mp least
    have to254 : c.toNat ≤ 254 := Char.le_def.mp greatest
    rw [if_pos (.inr ⟨from224, to254, fun h => other (division.mpr h)⟩), Char.ofNat,
      dif_pos (show (c.toNat - 32).isValidChar from .inl (by omega))]
    rfl
  · rename_i unaccented
    have outside : ¬ (224 ≤ c.toNat ∧ c.toNat ≤ 254 ∧ c.toNat ≠ 247) := fun accented =>
      unaccented ⟨Char.le_def.mpr accented.1, Char.le_def.mpr accented.2.1,
        fun h => accented.2.2 (division.mp h)⟩
    rw [toNat_toUpper]
    simp only [outside, or_false]

theorem upper_eq_low {c d : Char} (low : d.val.toNat < 65) : upper c = d ↔ c = d := by
  have number : d.toNat < 65 := low
  rw [← Char.toNat_inj, ← Char.toNat_inj, toNat_upper]
  split <;> omega

/-- Names that the directory takes for one are one to the database as well. -/
theorem sqlKey_of_nameEq {a b : String} (h : nameEq a b = true) : sqlKey a = sqlKey b := by
  rw [sqlKey, sqlKey, beq_iff_eq.mp h]

/-! ## Plain names -/

def plainChar (c : Char) : Bool := c.isAlphanum || c == '-'

/-- Letters, digits and hyphens, of which drawn names are made. -/
def plainName (s : String) : Bool := s.toList.all plainChar

theorem isAlpha_iff (c : Char) : c.isAlpha = true ↔
    (65 ≤ c.toNat ∧ c.toNat ≤ 90) ∨ (97 ≤ c.toNat ∧ c.toNat ≤ 122) := by
  change (decide ('A'.val ≤ c.val ∧ c.val ≤ 'Z'.val) ||
    (decide ('a'.val ≤ c.val) && decide (c.val ≤ 'z'.val))) = true ↔ _
  rw [Bool.or_eq_true, Bool.and_eq_true, decide_eq_true_iff, decide_eq_true_iff, decide_eq_true_iff]
  simp only [UInt32.le_iff_toNat_le]
  rfl

theorem isDigit_iff (c : Char) : c.isDigit = true ↔ 48 ≤ c.toNat ∧ c.toNat ≤ 57 := by
  change (decide ('0'.val ≤ c.val) && decide (c.val ≤ '9'.val)) = true ↔ _
  rw [Bool.and_eq_true, decide_eq_true_iff, decide_eq_true_iff]
  simp only [UInt32.le_iff_toNat_le]
  rfl

theorem plainChar_iff (c : Char) : plainChar c = true ↔ (48 ≤ c.toNat ∧ c.toNat ≤ 57) ∨
    (65 ≤ c.toNat ∧ c.toNat ≤ 90) ∨ (97 ≤ c.toNat ∧ c.toNat ≤ 122) ∨ c.toNat = 45 := by
  have hyphen : c = '-' ↔ c.toNat = 45 := Char.toNat_inj.symm
  rw [plainChar, Char.isAlphanum, Bool.or_eq_true, Bool.or_eq_true, isAlpha_iff, isDigit_iff,
    beq_iff_eq, hyphen]
  omega

theorem plainChar_upper (c : Char) : plainChar (upper c) = plainChar c := by
  rw [Bool.eq_iff_iff, plainChar_iff, plainChar_iff, toNat_upper]
  split <;> omega
theorem plainName_congr {a b : String} (same : nameEq a b = true) : plainName a = plainName b := by
  have folded : ∀ s : String, plainName s = (foldCase s).all plainChar := by
    intro s
    rw [plainName, foldCase, List.all_map]
    exact congrArg s.toList.all (funext (fun c => (plainChar_upper c).symm))
  rw [folded, folded, beq_iff_eq.mp same]

theorem mem_plainName {s : String} (plain : plainName s = true) {c : Char} (hc : c ∈ s.toList)
    {d : Char} (special : plainChar d = false) : c ≠ d := by
  rintro rfl
  rw [List.all_eq_true.mp plain c hc] at special
  cases special

theorem filterParts_plain (cs : List Char) (plain : ∀ c ∈ cs, c ≠ '*' ∧ c ≠ '\\') :
    filterParts cs = some (cs.map .literal) := by
  induction cs with
  | nil => rfl
  | cons c cs ih =>
    obtain ⟨star, backslash⟩ := plain c List.mem_cons_self
    rw [filterParts, ih (fun d hd => plain d (List.mem_cons_of_mem c hd))]
    · rfl
    · exact star
    · rintro a b rest rfl
      exact absurd rfl backslash
    · rintro a rfl
      exact absurd rfl backslash

theorem filterMatches_literals (cs text : List Char) :
    filterMatches (cs.map .literal) text = (text == cs.map upper) := by
  induction cs generalizing text with
  | nil => cases text <;> rfl
  | cons c cs ih =>
    cases text with
    | nil => rfl
    | cons d text =>
      rw [List.map_cons, filterMatches, ih, List.map_cons, List.cons_beq_cons, Bool.beq_comm]

/-- Without an asterisk and a backslash a search finds the name alone. -/
theorem finds_plain {name : String} (plain : ∀ c ∈ name.toList, c ≠ '*' ∧ c ≠ '\\') (value : String) :
    finds name value = nameEq value name := by
  rw [finds, filterParts_plain _ plain, Option.any_some, filterMatches_literals, nameEq, foldCase,
    foldCase, Bool.or_self]

theorem finds_plainName {name : String} (plain : plainName name = true) (value : String) :
    finds name value = nameEq value name :=
  finds_plain (fun _ hc => ⟨mem_plainName plain hc (by decide), mem_plainName plain hc (by decide)⟩)
    value

theorem finds_of_nameEq {name value : String} (same : nameEq value name = true) :
    finds name value = true := by
  rw [finds, same, Bool.true_or]

theorem finds_congr {a b : String} (same : nameEq a b = true) (name : String) :
    finds name a = finds name b := by
  rw [finds, finds, nameEq, nameEq, beq_iff_eq.mp same]

/-- A plain value is read character by character up to the comma. -/
theorem dnParts_value {cs : List Char} (plain : ∀ c ∈ cs, plainChar c = true) {place : DnPlace}
    (started : place = .before ∨ place = .value) (rest : List Char) :
    dnParts place (cs ++ ',' :: rest) = cs.map .literal ++ .separator ',' :: dnParts .type rest := by
  have unquoted : place ≠ .quoted := by rcases started with rfl | rfl <;> decide
  have typed : place ≠ .type := by rcases started with rfl | rfl <;> decide
  have going : place.inside = .value := by rcases started with rfl | rfl <;> rfl
  induction cs generalizing place with
  | nil =>
    rw [List.nil_append, dnParts]
    · simp [unquoted]
    · simp
    · simp
  | cons c cs ih =>
    have other : ∀ d, plainChar d = false → c ≠ d := by
      rintro d special rfl
      rw [plain c List.mem_cons_self] at special
      cases special
    have mark : c.toNat ≠ 34 := fun h => other (Char.ofNat 34) (by decide) (Char.toNat_inj.mp h)
    rw [List.cons_append, dnParts, going, ih (fun d hd => plain d (List.mem_cons_of_mem c hd)) (.inr rfl)
      (by decide) (by decide) rfl]
    · simp [unquoted, typed, mark, other ',' (by decide), other ';' (by decide),
        other '+' (by decide), other ' ' (by decide)]
    · rintro a b tail rfl
      exact absurd rfl (other '\\' (by decide))
    · rintro a rfl
      exact absurd rfl (other '\\' (by decide))

theorem foldr_literals (cs : List Char) (rest : List DnPart) :
    (cs.map DnPart.literal).foldr joinPart rest = cs.map .literal ++ rest := by
  induction cs with
  | nil => rfl
  | cons c cs ih =>
    rw [List.map_cons, List.foldr_cons, ih]
    rfl

theorem joinPart_below (cs : List Char) (tail : List DnPart) :
    (joinPart (.literal 'C') (joinPart (.literal 'N') (joinPart (.separator '=')
      (cs.map .literal ++ joinPart (.separator ',') tail)))).dropWhile (· = .blank) =
      .literal 'C' :: .literal 'N' :: .separator '=' :: (cs.map .literal ++
        .separator ',' :: tail.dropWhile (· = .blank)) := by
  cases cs with
  | nil => rfl
  | cons c cs => rfl

/-- What is filed under a plain name lies below the base. -/
theorem dnKey_below {name : String} (plain : plainName name = true) (base : String) :
    dnKey base <:+ dnKey ("cn=" ++ name ++ "," ++ base) := by
  have value : ∀ c ∈ foldCase name, plainChar c = true := by
    intro c hc
    obtain ⟨d, hd, rfl⟩ := List.mem_map.mp hc
    rw [plainChar_upper]
    exact List.all_eq_true.mp plain d hd
  have text : foldCase ("cn=" ++ name ++ "," ++ base) =
      'C' :: 'N' :: '=' :: (foldCase name ++ ',' :: foldCase base) := by
    rw [foldCase_append, foldCase_append, foldCase_append]
    simp [foldCase, upper]
  have parts : dnParts .type (foldCase ("cn=" ++ name ++ "," ++ base)) =
      .literal 'C' :: .literal 'N' :: .separator '=' ::
        ((foldCase name).map .literal ++ .separator ',' :: dnParts .type (foldCase base)) := by
    rw [text, ← dnParts_value value (.inl rfl)]
    simp [dnParts, DnPlace.inside]
  rw [dnKey, dnKey, parts, List.foldr_cons, List.foldr_cons, List.foldr_cons, List.foldr_append,
    List.foldr_cons, foldr_literals, joinPart_below]
  refine List.IsSuffix.map _ ⟨.literal 'C' :: .literal 'N' :: .separator '=' ::
    ((foldCase name).map .literal ++ [.separator ',']), ?_⟩
  simp

/-! ## Character filters -/

theorem mem_keepOnly {allowed : Char → Bool} {s : String} {c : Char} :
    c ∈ (keepOnly allowed s).toList ↔ c ∈ s.toList ∧ allowed c = true := by
  simp [keepOnly]

theorem keepOnly_eq_self {allowed : Char → Bool} {s : String}
    (h : ∀ c ∈ s.toList, allowed c = true) : keepOnly allowed s = s := by
  rw [keepOnly, List.filter_eq_self.mpr h, String.ofList_toList]

end Text
