import Proconsul.HostForms

/-!
# Pages that list rows beside a button to remove them

The other pages of the console are built like the one for hosts: blocks of rows, each
block numbered from zero, with hidden fields for the values of a row and one more for
its flag. The button sets the flag and submits the form, and the removal branches of
the handler collect the values again by number. What a submitted form deletes is
worked out here once, for any such page.

A flag may be a value of the row itself, which the button clears; it only has to be
told from the values that rows are displayed with.
-/

namespace Listings

open Program Schema Text Surroundings AdminConsole HostForms

/-! ## Pages as blocks of lines -/

/-- The hidden fields of a row, in the order of the template: words and values around a flag. -/
structure Line where
  before : List (String × String)
  flag : String
  kept : String
  raised : String
  after : List (String × String)
  deriving DecidableEq, Repr

namespace Line

def words (l : Line) : List String := l.before.map Prod.fst ++ l.flag :: l.after.map Prod.fst

def values (l : Line) : List (String × String) := l.before ++ l.after

def fields (l : Line) (delete : Bool) (pct : Nat) : List Field :=
  l.before.map (fun o => ⟨o.1, pct, o.2⟩) ++
    ⟨l.flag, pct, if delete then l.raised else l.kept⟩ :: l.after.map (fun o => ⟨o.1, pct, o.2⟩)

theorem words_fields (l : Line) (delete : Bool) (pct : Nat) :
    (l.fields delete pct).map Field.word = l.words := by
  simp [fields, words, Function.comp_def]

theorem number_fields {l : Line} {delete : Bool} {pct : Nat} {f : Field}
    (hf : f ∈ l.fields delete pct) : f.number = pct := by
  simp only [fields, List.mem_append, List.mem_cons, List.mem_map] at hf
  rcases hf with ⟨o, -, rfl⟩ | rfl | ⟨o, -, rfl⟩ <;> rfl

theorem mem_words {l : Line} {delete : Bool} {pct : Nat} {f : Field}
    (hf : f ∈ l.fields delete pct) : f.word ∈ l.words := by
  rw [← words_fields l delete pct]
  exact List.mem_map_of_mem hf

theorem mem_fields_value {l : Line} {word value : String} (mem : (word, value) ∈ l.values)
    (delete : Bool) (pct : Nat) : (⟨word, pct, value⟩ : Field) ∈ l.fields delete pct := by
  rw [fields, List.mem_append, List.mem_cons]
  rcases List.mem_append.mp mem with front | back
  · exact .inl (List.mem_map.mpr ⟨_, front, rfl⟩)
  · exact .inr (.inr (List.mem_map.mpr ⟨_, back, rfl⟩))

theorem mem_fields_flag (l : Line) (delete : Bool) (pct : Nat) :
    (⟨l.flag, pct, if delete then l.raised else l.kept⟩ : Field) ∈ l.fields delete pct :=
  List.mem_append_right _ List.mem_cons_self

/-- The field with the flag's word is the flag. -/
theorem value_of_flag {l : Line} (own : l.words.Nodup) {delete : Bool} {pct : Nat} {f : Field}
    (hf : f ∈ l.fields delete pct) (word : f.word = l.flag) :
    f.value = if delete then l.raised else l.kept := by
  rw [← words_fields l delete pct] at own
  have same := List.inj_on_of_nodup_map own hf (l.mem_fields_flag delete pct) word
  rw [same]

end Line

/-- A form of such lines. Within a line no word occurs twice, nor in two blocks. -/
structure Listing where
  marker : String
  blocks : List (List Line)
  markerWordy : wordy marker = true
  wordsWordy : ∀ b ∈ blocks, ∀ l ∈ b, ∀ word ∈ l.words, wordy word = true
  ownWords : ∀ b ∈ blocks, ∀ l ∈ b, l.words.Nodup
  apart : blocks.Pairwise (fun b b' => ∀ l ∈ b, ∀ l' ∈ b', ∀ word ∈ l.words, word ∉ l'.words)

namespace Listing

/-- Block and number of the rows whose button was pressed. -/
abbrev Clicked : Type := Nat → Nat → Bool

def fields (L : Listing) (delete : Clicked) : List Field :=
  L.blocks.zipIdx.flatMap (fun b => b.1.zipIdx.flatMap (fun e => e.1.fields (delete b.2 e.2) e.2))

variable {L : Listing} {delete : Clicked}

theorem mem_fields {f : Field} : f ∈ L.fields delete ↔
    ∃ b k l i, (b, k) ∈ L.blocks.zipIdx ∧ (l, i) ∈ b.zipIdx ∧ f ∈ l.fields (delete k i) i := by
  simp only [fields, List.mem_flatMap, Prod.exists]
  constructor
  · rintro ⟨b, k, hb, l, i, hl, hf⟩
    exact ⟨b, k, l, i, hb, hl, hf⟩
  · rintro ⟨b, k, l, i, hb, hl, hf⟩
    exact ⟨b, k, hb, l, i, hl, hf⟩

theorem nodup_fields (L : Listing) (delete : Clicked) : ((L.fields delete).map Field.key).Nodup := by
  rw [fields, List.map_flatMap, List.nodup_flatMap]
  constructor
  · rintro ⟨b, k⟩ hb
    have here : b ∈ L.blocks := List.fst_mem_of_mem_zipIdx hb
    -- `nodup_numbered` asks for all lines, hence the subtype of those of the block
    have rows : ((b.attach.zipIdx.flatMap (fun e => e.1.1.fields (delete k e.2) e.2)).map
        Field.key).Nodup := by
      refine nodup_numbered _ (fun e f hf => Line.number_fields hf) (fun e => ?_)
      rw [Line.words_fields]
      exact L.ownWords b here e.1.1 e.1.2
    have plain : b.attach.zipIdx.flatMap (fun e => e.1.1.fields (delete k e.2) e.2) =
        b.zipIdx.flatMap (fun e => e.1.fields (delete k e.2) e.2) := by
      have values : b.zipIdx = b.attach.zipIdx.map (fun e => (e.1.1, e.2)) := by
        conv_lhs => rw [← List.attach_map_subtype_val b]
        rw [List.zipIdx_map]
        rfl
      rw [values, List.flatMap_map]
    rw [plain] at rows
    exact rows
  · have blocks : L.blocks.zipIdx.Pairwise (fun b b' => ∀ l ∈ b.1, ∀ l' ∈ b'.1,
        ∀ word ∈ l.words, word ∉ l'.words) := by
      have apart := L.apart
      rw [← List.zipIdx_map_fst 0 L.blocks, List.pairwise_map] at apart
      exact apart
    refine blocks.imp ?_
    rintro ⟨b, k⟩ ⟨b', k'⟩ differ key mem mem'
    obtain ⟨f, hf, rfl⟩ := List.mem_map.mp mem
    obtain ⟨g, hg, same⟩ := List.mem_map.mp mem'
    obtain ⟨⟨l, i⟩, hl, hf⟩ := List.mem_flatMap.mp hf
    obtain ⟨⟨l', i'⟩, hl', hg⟩ := List.mem_flatMap.mp hg
    have word : g.word = f.word := congrArg Prod.fst same
    refine differ l (List.fst_mem_of_mem_zipIdx hl) l' (List.fst_mem_of_mem_zipIdx hl') f.word
      (Line.mem_words hf) ?_
    rw [← word]
    exact Line.mem_words hg

def form (L : Listing) (delete : Clicked) : NumberedForm where
  marker := L.marker
  fields := L.fields delete
  markerWordy := L.markerWordy
  wordsWordy := by
    intro f hf
    obtain ⟨b, k, l, i, hb, hl, hf⟩ := mem_fields.mp hf
    exact L.wordsWordy b (List.fst_mem_of_mem_zipIdx hb) l (List.fst_mem_of_mem_zipIdx hl) _
      (Line.mem_words hf)
  distinct := L.nodup_fields delete

/-! ## What the form sends -/

section Sent

variable {browser : String → String}

theorem getParameter_value {b : List Line} {k : Nat} (hb : (b, k) ∈ L.blocks.zipIdx) {l : Line}
    {i : Nat} (hl : (l, i) ∈ b.zipIdx) {word value : String} (mem : (word, value) ∈ l.values) :
    ((L.form delete).parameters browser).getParameter (word ++ toString i) =
      some (browser value) :=
  NumberedForm.getParameter_field (f := ⟨word, i, value⟩)
    (mem_fields.mpr ⟨b, k, l, i, hb, hl, Line.mem_fields_value mem _ _⟩)

/-- The removal branches of the page's handler: their flags are the flags of the page. -/
structure Answered (rules : List Deletion) (L : Listing) : Prop where
  flags : Apart rules
  known : ∀ d ∈ rules, d.table.knows d.columns = true
  words : ∀ d ∈ rules, wordy d.flag = true ∧ d.flag ≠ L.marker
  own : ∀ d ∈ rules, ∀ b ∈ L.blocks, ∀ l ∈ b, d.flag ∈ l.words →
    d.flag = l.flag ∧ d.mark = l.raised

/-- The browser sends a raised flag as it is, and no other value looks like one. -/
def Legible (browser : String → String) (L : Listing) : Prop :=
  ∀ b ∈ L.blocks, ∀ l ∈ b, browser l.raised = l.raised ∧ browser l.kept ≠ l.raised

/-- The branches that are taken are those of the rows whose button was pressed. -/
theorem mem_marked_form {rules : List Deletion} (answered : Answered rules L)
    (legible : Legible browser L) {d : Deletion} {num : String} :
    (d, num) ∈ marked rules ((L.form delete).parameters browser) ↔
      d ∈ rules ∧ ∃ b k l i, (b, k) ∈ L.blocks.zipIdx ∧ (l, i) ∈ b.zipIdx ∧
        delete k i = true ∧ l.flag = d.flag ∧ num = toString i := by
  rw [mem_marked answered.flags]
  refine and_congr_right (fun mem => ?_)
  obtain ⟨word, other⟩ := answered.words d mem
  constructor
  · rintro ⟨entry, digits⟩
    obtain ⟨f, hf, named, number, value⟩ :=
      (NumberedForm.mem_entries_iff word digits other).mp entry
    obtain ⟨b, k, l, i, hb, hl, hf⟩ := mem_fields.mp hf
    have block : b ∈ L.blocks := List.fst_mem_of_mem_zipIdx hb
    have line : l ∈ b := List.fst_mem_of_mem_zipIdx hl
    obtain ⟨flag, mark⟩ := answered.own d mem b block l line (named ▸ Line.mem_words hf)
    rw [Line.value_of_flag (L.ownWords b block l line) hf (named.trans flag), mark] at value
    refine ⟨b, k, l, i, hb, hl, ?_, flag.symm, ?_⟩
    · by_contra unset
      rw [if_neg unset] at value
      exact (legible b block l line).2 value
    · rw [← number, Line.number_fields hf]
  · rintro ⟨b, k, l, i, hb, hl, set, flag, rfl⟩
    have block : b ∈ L.blocks := List.fst_mem_of_mem_zipIdx hb
    have line : l ∈ b := List.fst_mem_of_mem_zipIdx hl
    have mine : d.flag ∈ l.words := by
      rw [← flag]
      exact List.mem_append_right _ List.mem_cons_self
    obtain ⟨-, mark⟩ := answered.own d mem b block l line mine
    have digits := numeral_toString i
    refine ⟨(NumberedForm.mem_entries_iff word digits other).mpr ?_, digits⟩
    refine ⟨⟨l.flag, i, l.raised⟩, ?_, flag, rfl, ?_⟩
    · have here := l.mem_fields_flag (delete k i) i
      rw [if_pos set] at here
      exact mem_fields.mpr ⟨b, k, l, i, hb, hl, here⟩
    · rw [mark]
      exact (legible b block l line).1

end Sent

end Listing

/-! ## What becomes of a table -/

/-- A displayed column: the word of its field, its value, and its reference as it is written. -/
structure Column (ρ : Type) where
  word : String
  get : ρ → Option String
  reference : String

/-- Row `r` is selected by what was sent for row `q`. -/
def Hits {ρ : Type} (browser : String → String) (columns : List (Column ρ)) (r q : ρ) : Prop :=
  ∀ c ∈ columns, sqlEq (c.get r) (some (browser (rendered c.reference (c.get q)))) = true

/-- Nothing that is sent is equal to a missing value. -/
theorem Hits.get_ne_none {ρ : Type} {browser : String → String} {columns : List (Column ρ)} {r q : ρ}
    (hit : Hits browser columns r q) {c : Column ρ} (hc : c ∈ columns) : c.get r ≠ none := by
  intro null
  have found := hit c hc
  rw [null] at found
  cases found

/-- What a list of flagged rows deletes from one table, if each branch deletes what it chooses. -/
theorem rows_removed {ρ : Type} {T : Database → List ρ}
    {chosen : Deletion → (String → Option String) → ρ → Bool} {p : Parameters}
    {marks : List (Deletion × String)}
    (removes : ∀ m ∈ marks, ∀ field db, T (m.1.remove field db) =
      deleteWhere (chosen m.1 field) (T db)) (db : Database) :
    T (marks.foldl (removeMarked p) db) = deleteWhere (fun r => marks.any (fun m =>
      chosen m.1 (fun name => p.getParameter (name ++ m.2)) r)) (T db) := by
  induction marks generalizing db with
  | nil => simp [deleteWhere]
  | cons m marks ih =>
    rw [List.foldl_cons, ih (fun m' hm => removes m' (List.mem_cons_of_mem m hm)), removeMarked,
      removes m List.mem_cons_self]
    simp [deleteWhere, List.filter_filter, Bool.and_comm]

theorem frame_removed {δ : Type} {F : Database → δ} {p : Parameters}
    {marks : List (Deletion × String)}
    (keeps : ∀ m ∈ marks, ∀ field db, F (m.1.remove field db) = F db) (db : Database) :
    F (marks.foldl (removeMarked p) db) = F db := by
  induction marks generalizing db with
  | nil => rfl
  | cons m marks ih =>
    rw [List.foldl_cons, ih (fun m' hm => keeps m' (List.mem_cons_of_mem m hm)), removeMarked,
      keeps m List.mem_cons_self]

/-- A table with the rest of the database around it. -/
structure Part (ρ : Type) where
  rows : Database → List ρ
  put : Database → List ρ → Database
  rows_put : ∀ db t, rows (put db t) = t
  put_put : ∀ db t t', put (put db t) t' = put db t'
  put_rows : ∀ db, put db (rows db) = db

/-- Branches that all delete from one table. -/
theorem foldl_removed {ρ : Type} (part : Part ρ)
    {chosen : Deletion → (String → Option String) → ρ → Bool} {p : Parameters}
    {marks : List (Deletion × String)}
    (removes : ∀ m ∈ marks, ∀ field db, m.1.remove field db =
      part.put db (deleteWhere (chosen m.1 field) (part.rows db))) (db : Database) :
    marks.foldl (removeMarked p) db = part.put db (deleteWhere (fun r => marks.any (fun m =>
      chosen m.1 (fun name => p.getParameter (name ++ m.2)) r)) (part.rows db)) := by
  induction marks generalizing db with
  | nil => simp [deleteWhere, part.put_rows]
  | cons m marks ih =>
    rw [List.foldl_cons, ih (fun m' hm => removes m' (List.mem_cons_of_mem m hm)), removeMarked,
      removes m List.mem_cons_self, part.rows_put, part.put_put]
    simp [deleteWhere, List.filter_filter, Bool.and_comm]

/-- The rows of one table as block `k` of the page: how each is displayed, by which columns a
branch of the handler recognises it, and what the branches delete from the table. -/
structure Shows {ρ : Type} (rules : List Deletion) (L : Listing) (k : Nat) (shown : List ρ)
    (line : ρ → Line) (columns : ρ → List (Column ρ))
    (chosen : Deletion → (String → Option String) → ρ → Bool) : Prop where
  block : (shown.map line, k) ∈ L.blocks.zipIdx
  carried : ∀ q ∈ shown, ∀ c ∈ columns q,
    (c.word, rendered c.reference (c.get q)) ∈ (line q).values
  ruled : ∀ q ∈ shown, ∃ d ∈ rules, d.flag = (line q).flag
  chooses : ∀ d ∈ rules, ∀ q ∈ shown, d.flag = (line q).flag → ∀ field r,
    chosen d field r = (columns q).all (fun c => sqlEq (c.get r) (field c.word))
  elsewhere : ∀ d ∈ rules, ∀ b k', (b, k') ∈ L.blocks.zipIdx → k' ≠ k → ∀ l ∈ b,
    l.flag = d.flag → ∀ field r, chosen d field r = false

theorem dropped_iff {ρ : Type} {rules : List Deletion} {L : Listing} {k : Nat} {shown : List ρ}
    {line : ρ → Line} {columns : ρ → List (Column ρ)}
    {chosen : Deletion → (String → Option String) → ρ → Bool}
    (shows : Shows rules L k shown line columns chosen) (answered : L.Answered rules)
    {browser : String → String} (legible : L.Legible browser) {delete : Listing.Clicked} (r : ρ) :
    (marked rules ((L.form delete).parameters browser)).any (fun m => chosen m.1
        (fun name => ((L.form delete).parameters browser).getParameter (name ++ m.2)) r) = true ↔
      ∃ q ∈ flaggedRows shown (delete k), Hits browser (columns q) r q := by
  have recognised : ∀ d ∈ rules, ∀ q i, (q, i) ∈ shown.zipIdx → d.flag = (line q).flag →
      (chosen d (fun name => ((L.form delete).parameters browser).getParameter (name ++ toString i))
        r = true ↔ Hits browser (columns q) r q) := by
    intro d hd q i hq flag
    have here : q ∈ shown := List.fst_mem_of_mem_zipIdx hq
    have line : (line q, i) ∈ (shown.map line).zipIdx := by
      rw [List.zipIdx_map]
      exact List.mem_map_of_mem (f := Prod.map line id) hq
    rw [shows.chooses d hd q here flag, List.all_eq_true]
    refine forall₂_congr (fun c hc => ?_)
    rw [Listing.getParameter_value shows.block line (shows.carried q here c hc)]
  rw [List.any_eq_true]
  constructor
  · rintro ⟨⟨d, num⟩, hm, hit⟩
    obtain ⟨hd, b, k', l, i, hb, hl, set, flag, rfl⟩ := (Listing.mem_marked_form answered legible).mp hm
    have same : k' = k := by
      by_contra other
      rw [shows.elsewhere d hd b k' hb other l (List.fst_mem_of_mem_zipIdx hl) flag] at hit
      cases hit
    subst same
    obtain rfl : b = shown.map line := by
      have first := List.mem_zipIdx_iff_getElem?.mp hb
      have second := List.mem_zipIdx_iff_getElem?.mp shows.block
      exact Option.some.inj (first.symm.trans second)
    rw [List.zipIdx_map] at hl
    obtain ⟨⟨q, j⟩, hq, same⟩ := List.mem_map.mp hl
    obtain ⟨rfl, rfl⟩ : line q = l ∧ j = i := Prod.mk.inj same
    exact ⟨q, mem_flaggedRows.mpr ⟨j, hq, set⟩, (recognised d hd q j hq flag.symm).mp hit⟩
  · rintro ⟨q, flagged, hit⟩
    obtain ⟨i, hq, set⟩ := mem_flaggedRows.mp flagged
    have here : q ∈ shown := List.fst_mem_of_mem_zipIdx hq
    obtain ⟨d, hd, flag⟩ := shows.ruled q here
    have line : (line q, i) ∈ (shown.map line).zipIdx := by
      rw [List.zipIdx_map]
      exact List.mem_map_of_mem (f := Prod.map line id) hq
    refine ⟨(d, toString i), (Listing.mem_marked_form answered legible).mpr
      ⟨hd, _, k, _, i, shows.block, line, set, flag.symm, rfl⟩, ?_⟩
    exact (recognised d hd q i hq flag).mpr hit

/-! ## Which rows are meant -/

section Meant

variable {ρ : Type} {browser : String → String} (carries : ∀ v, plain v = true → browser v = v)
  {columns : ρ → List (Column ρ)} {rows flagged : List ρ}

include carries

theorem hits_iff {r q : ρ} (plainRow : ∀ c ∈ columns q, (c.get q).all plain = true)
    (complete : ∀ c ∈ columns q, c.get q ≠ none) :
    Hits browser (columns q) r q ↔ ∀ c ∈ columns q, sqlEq (c.get r) (c.get q) = true := by
  refine forall₂_congr (fun c hc => ?_)
  obtain ⟨v, hv⟩ := Option.ne_none_iff_exists'.mp (complete c hc)
  have readable := plainRow c hc
  rw [hv] at readable ⊢
  rw [sent_some carries readable]

/-- The rows that are deleted are those that are equal to a flagged one, if and only if no flagged
row lacks a value by which it is recognised. -/
theorem cleared_iff (sub : ∀ q ∈ flagged, q ∈ rows)
    (plainRows : ∀ q ∈ rows, ∀ c ∈ columns q, (c.get q).all plain = true)
    {alike : ρ → ρ → Bool} (refl : ∀ q ∈ rows, alike q q = true)
    (agree : ∀ r ∈ rows, ∀ q ∈ rows, (∀ c ∈ columns q, c.get q ≠ none) →
      ((∀ c ∈ columns q, sqlEq (c.get r) (c.get q) = true) ↔ alike r q = true))
    (stuck : ∀ q ∈ rows, ∀ c ∈ columns q, c.get q = none → ∀ q' ∈ rows,
      ¬ Hits browser (columns q') q q')
    {dropped : ρ → Bool}
    (deletes : ∀ r, dropped r = true ↔ ∃ q ∈ flagged, Hits browser (columns q) r q) :
    deleteWhere dropped rows = deleteWhere (fun r => flagged.any (alike r)) rows ↔
      ∀ q ∈ flagged, ∀ c ∈ columns q, c.get q ≠ none := by
  constructor
  · intro equal q hq c hc null
    have there := sub q hq
    -- nothing that is sent is equal to the missing value, so that the row itself stays
    have kept : q ∈ deleteWhere dropped rows := by
      rw [mem_deleteWhere, Bool.eq_false_iff, Ne, deletes]
      refine ⟨there, ?_⟩
      rintro ⟨q', hq', hit⟩
      exact stuck q there c hc null q' (sub q' hq') hit
    rw [equal, mem_deleteWhere] at kept
    have gone : flagged.any (alike q) = true := List.any_eq_true.mpr ⟨q, hq, refl q there⟩
    rw [gone] at kept
    cases kept.2
  · intro complete
    refine deleteWhere_congr (fun r hr => ?_)
    rw [Bool.eq_iff_iff, deletes, List.any_eq_true]
    refine exists_congr (fun q => and_congr_right (fun hq => ?_))
    rw [hits_iff carries (plainRows q (sub q hq)) (complete q hq)]
    exact agree r hr q (sub q hq) (complete q hq)

omit carries in
/-- Equal in the values of these columns, in the sense in which a null is equal to a null. -/
def equalBy (columns : List (Column ρ)) (r q : ρ) : Bool :=
  columns.all (fun c => same (c.get r) (c.get q))

omit carries in
theorem equalBy_iff {columns : List (Column ρ)} {r q : ρ} (complete : ∀ c ∈ columns, c.get q ≠ none) :
    (∀ c ∈ columns, sqlEq (c.get r) (c.get q) = true) ↔ equalBy columns r q = true := by
  rw [equalBy, List.all_eq_true]
  refine forall₂_congr (fun c hc => ?_)
  obtain ⟨v, hv⟩ := Option.ne_none_iff_exists'.mp (complete c hc)
  rw [hv, same_some]

/-- Every row is recognised by the same columns. -/
theorem cleared_columns_iff {columns : List (Column ρ)} (sub : ∀ q ∈ flagged, q ∈ rows)
    (plainRows : ∀ q ∈ rows, ∀ c ∈ columns, (c.get q).all plain = true) {dropped : ρ → Bool}
    (deletes : ∀ r, dropped r = true ↔ ∃ q ∈ flagged, Hits browser columns r q) :
    deleteWhere dropped rows = deleteWhere (fun r => flagged.any (equalBy columns r)) rows ↔
      ∀ q ∈ flagged, ∀ c ∈ columns, c.get q ≠ none := by
  refine cleared_iff carries sub plainRows (fun q _ => ?_) (fun r _ q _ complete => ?_)
    (fun q _ c hc null q' _ hit => hit.get_ne_none hc null) deletes
  · simp [equalBy, same_refl]
  · exact equalBy_iff complete

/-- A block whose rows make up a table: what the form leaves of the database is what is left without
the rows that agree with a flagged one in what is displayed of that. -/
theorem block_removed_iff (part : Part ρ) {rules : List Deletion} {L : Listing} {k : Nat}
    {line : ρ → Line} {chosen : Deletion → (String → Option String) → ρ → Bool} {db : Database}
    (removes : ∀ d ∈ rules, ∀ field db', d.remove field db' =
      part.put db' (deleteWhere (chosen d field) (part.rows db')))
    (shows : Shows rules L k (part.rows db) line columns chosen) (answered : L.Answered rules)
    (legible : L.Legible browser)
    (plainRows : ∀ q ∈ part.rows db, ∀ c ∈ columns q, (c.get q).all plain = true)
    (stuck : ∀ q ∈ part.rows db, ∀ c ∈ columns q, c.get q = none → ∀ q' ∈ part.rows db,
      ¬ Hits browser (columns q') q q') (delete : Listing.Clicked) :
    (marked rules ((L.form delete).parameters browser)).foldl
        (removeMarked ((L.form delete).parameters browser)) db =
      part.put db (deleteWhere (fun r => (flaggedRows (part.rows db) (delete k)).any
        (fun q => equalBy (columns q) r q)) (part.rows db)) ↔
      ∀ q ∈ flaggedRows (part.rows db) (delete k), ∀ c ∈ columns q, c.get q ≠ none := by
  have marks : ∀ m ∈ marked rules ((L.form delete).parameters browser), ∀ field db',
      m.1.remove field db' = part.put db' (deleteWhere (chosen m.1 field) (part.rows db')) :=
    fun m hm => removes m.1 ((mem_marked answered.flags).mp hm).1
  have put_inj : ∀ t t', part.put db t = part.put db t' ↔ t = t' := by
    intro t t'
    constructor
    · intro equal
      have rows := congrArg part.rows equal
      rw [part.rows_put, part.rows_put] at rows
      exact rows
    · rintro rfl
      rfl
  rw [foldl_removed part marks, put_inj]
  refine cleared_iff carries (fun q hq => mem_of_flagged hq) plainRows
    (fun q _ => ?_) (fun r _ q _ complete => ?_) stuck (dropped_iff shows answered legible)
  · simp [equalBy, same_refl]
  · exact equalBy_iff complete

omit carries in
/-- Where the key tells the rows apart, deleting what is equal to a flagged row deletes that row. -/
theorem deleteWhere_flagged {κ : Type} {key : ρ → κ} (keyed : (rows.map key).Nodup)
    {alike : ρ → ρ → Bool} (agree : ∀ r q, alike r q = true ↔ key r = key q) (delete : Nat → Bool) :
    deleteWhere (fun r => (flaggedRows rows delete).any (alike r)) rows =
      flaggedRows rows (fun i => !delete i) := by
  have flag : ∀ e ∈ rows.zipIdx, (flaggedRows rows delete).any (alike e.1) = delete e.2 := by
    rintro ⟨r, i⟩ hr
    rw [Bool.eq_iff_iff, List.any_eq_true]
    constructor
    · rintro ⟨q, hq, same⟩
      obtain ⟨j, hj, set⟩ := mem_flaggedRows.mp hq
      have first := List.mem_zipIdx_iff_getElem?.mp hr
      have second := List.mem_zipIdx_iff_getElem?.mp hj
      have index : i = j := by
        refine (List.getElem?_inj ?_ keyed).mp ?_
        · rw [List.length_map]
          exact (List.getElem?_eq_some_iff.mp first).1
        · rw [List.getElem?_map, List.getElem?_map, first, second]
          exact congrArg some ((agree r q).mp same)
      rw [index]
      exact set
    · intro set
      exact ⟨r, mem_flaggedRows.mpr ⟨i, hr, set⟩, (agree r r).mpr rfl⟩
  calc deleteWhere (fun r => (flaggedRows rows delete).any (alike r)) rows
      = (rows.zipIdx.map Prod.fst).filter (fun r => !(flaggedRows rows delete).any (alike r)) := by
        rw [List.zipIdx_map_fst]
        rfl
    _ = (rows.zipIdx.filter (fun e => !delete e.2)).map Prod.fst := by
        rw [List.filter_map]
        refine congrArg (List.map Prod.fst) (List.filter_congr (fun e he => ?_))
        rw [Function.comp_apply, flag e he]
    _ = flaggedRows rows (fun i => !delete i) := by
        rw [flaggedRows, ← List.filterMap_eq_map, List.filterMap_filter]
        refine List.filterMap_congr (fun e _ => ?_)
        rfl

end Meant

end Listings
