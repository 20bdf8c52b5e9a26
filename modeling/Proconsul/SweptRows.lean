import Proconsul.CheckoutDesk

/-!
# A closed checkout and the clock

No statement but the sweep's own select consults `status`: a listing and an
extension go by `expiretime` alone, with a comparison that overlaps the sweep's
at equality. A row that a sweep has selected at time `t` stays dead when every
later click on it compares with a time after `t`, and when a sweep closes no row
that was never selected. The rows are told apart by their position, as the table
has no key.
-/

namespace SweptRows

open Program Schema Text Surroundings Hosts Interleaving CheckoutDesk
open Checkout (pressed alive expired extendRow)

/-! ## The property -/

def expiresAt (d : Desk) (k : Nat) : Option Int := d.rows[k]?.bind CheckoutRow.expiretime

def Inactive (d : Desk) (k : Nat) : Prop :=
  d.rows[k]?.bind CheckoutRow.status = some "inactive"

/-- The lifetime of row `k` has not grown. -/
def NotExtended (d d' : Desk) (k : Nat) : Prop :=
  ∃ e e', expiresAt d k = some e ∧ expiresAt d' k = some e' ∧ e' ≤ e

/-- No listing since then has returned row `k`. -/
def NotListed (d d' : Desk) (k : Nat) : Prop :=
  ∀ now uid rows, Event.listed now uid rows ∈ d'.log.drop d.log.length → k ∉ rows

def StaysDead (d d' : Desk) (k : Nat) : Prop :=
  NotExtended d d' k ∧ NotListed d d' k

/-! ## The condition -/

/-- When and which rows sweeps have selected. -/
def selections (log : List Event) : List (Int × Nat) :=
  log.flatMap (fun e => match e with
    | .selected t rows => rows.map (fun k => (t, k))
    | _ => [])

/-- Every sweep that has selected one of these rows had an earlier time. -/
def AfterSweeps (d : Desk) (now : Int) (touched : CheckoutRow → Bool) : Prop :=
  ∀ s ∈ selections d.log, ∀ r ∈ d.rows[s.2]?, touched r = true → s.1 < now

def InTime (d : Desk) : Event → Prop
  | .extended now owner aduser =>
      AfterSweeps d now (fun r => sqlEq r.owner owner && sqlEq r.aduser aduser)
  | .listed now uid _ => AfterSweeps d now (fun r => sqlEq r.owner uid)
  | .closed rows => ∀ k ∈ rows, ∃ s ∈ selections d.log, s.2 = k
  | _ => True

/-- Every event of the step is in time. -/
def Timely (d d' : Desk) : Prop := ∀ e ∈ d'.log.drop d.log.length, InTime d e

theorem inTime_of_note {d d' : Desk} {e : Event} (timely : Timely d d')
    (logged : d'.log = d.log ++ [e]) : InTime d e := by
  apply timely
  rw [logged, List.drop_left]
  exact List.mem_singleton_self e

/-! ## Positions -/

theorem mem_positions {sel : CheckoutRow → Bool} {rows : List CheckoutRow} {k : Nat} :
    k ∈ positions sel rows ↔ ∃ r, rows[k]? = some r ∧ sel r = true := by
  simp only [positions, List.mem_map, List.mem_filter]
  constructor
  · rintro ⟨⟨r, j⟩, ⟨mem, chosen⟩, rfl⟩
    exact ⟨r, List.mem_zipIdx_iff_getElem?.mp mem, chosen⟩
  · rintro ⟨r, row, chosen⟩
    exact ⟨(r, k), ⟨List.mem_zipIdx_iff_getElem?.mpr row, chosen⟩, rfl⟩

theorem selections_append (log log' : List Event) :
    selections (log ++ log') = selections log ++ selections log' :=
  List.flatMap_append

theorem getElem?_updateWhere (sel : CheckoutRow → Bool) (f : CheckoutRow → CheckoutRow)
    (rows : List CheckoutRow) (k : Nat) :
    (updateWhere sel f rows)[k]? = rows[k]?.map (fun r => if sel r then f r else r) :=
  List.getElem?_map

/-! ## What a step does to selected rows -/

/-- A clock value is read before it is used. -/
def InOrder (clock : Int) : Phase → Prop
  | .timed now => now ≤ clock
  | .twice set now => set ≤ now
  | _ => True

structure Watched (d : Desk) (phs : List Phase) : Prop where
  selected : ∀ s ∈ selections d.log, ∃ e, expiresAt d s.2 = some e ∧ e ≤ s.1
  swept : ∀ k, Inactive d k → ∃ s ∈ selections d.log, s.2 = k
  phases : ∀ ph ∈ phs, InOrder d.clock ph

structure Sound (d d' : Desk) : Prop where
  log : d.log <+: d'.log
  older : ∀ s ∈ selections d.log, NotExtended d d' s.2
  unlisted : ∀ s ∈ selections d.log, NotListed d d' s.2
  fresh : ∀ s ∈ selections d'.log, s ∈ selections d.log ∨ ∃ e, expiresAt d' s.2 = some e ∧ e ≤ s.1
  stays : ∀ k, Inactive d k → Inactive d' k
  closes : ∀ k, Inactive d' k → Inactive d k ∨ ∃ s ∈ selections d.log, s.2 = k

/-- Neither a selection nor a listing. -/
def Quiet : Event → Prop
  | .selected _ _ => False
  | .listed _ _ _ => False
  | _ => True

theorem notExtended_rfl {d d' : Desk} {phs : List Phase} (watched : Watched d phs) {s : Int × Nat}
    (hs : s ∈ selections d.log) (same : d'.rows[s.2]? = d.rows[s.2]?) : NotExtended d d' s.2 := by
  obtain ⟨e, expires, -⟩ := watched.selected s hs
  have expires' : expiresAt d' s.2 = some e := by
    rw [expiresAt, same]
    exact expires
  exact ⟨e, e, expires, expires', Int.le_refl e⟩

theorem selections_quiet {es : List Event} (quiet : ∀ e ∈ es, Quiet e) : selections es = [] := by
  apply List.flatMap_eq_nil_iff.mpr
  intro e he
  have silent := quiet e he
  cases e with
  | selected t rows => exact silent.elim
  | created | extended | listed | searched | refused | closed => rfl

/-- A step that neither selects nor lists. -/
theorem sound_of_quiet {d d' : Desk} {es : List Event} (log : d'.log = d.log ++ es)
    (quiet : ∀ e ∈ es, Quiet e) (older : ∀ s ∈ selections d.log, NotExtended d d' s.2)
    (stays : ∀ k, Inactive d k → Inactive d' k)
    (closes : ∀ k, Inactive d' k → Inactive d k ∨ ∃ s ∈ selections d.log, s.2 = k) : Sound d d' where
  log := ⟨es, log.symm⟩
  older := older
  unlisted s _ now uid rows hlisted := by
    rw [log, List.drop_left] at hlisted
    exact (quiet _ hlisted).elim
  fresh s hs := by
    rw [log, selections_append, selections_quiet quiet, List.append_nil] at hs
    exact .inl hs
  stays := stays
  closes := closes

/-- A step that leaves the table alone and neither selects nor lists. -/
theorem sound_of_rows {d d' : Desk} {phs : List Phase} (watched : Watched d phs)
    (rows : d'.rows = d.rows) {es : List Event} (log : d'.log = d.log ++ es)
    (quiet : ∀ e ∈ es, Quiet e) : Sound d d' := by
  apply sound_of_quiet log quiet
  · intro s hs
    exact notExtended_rfl watched hs (by rw [rows])
  · intro k inactive
    rw [Inactive, rows]
    exact inactive
  · intro k inactive
    rw [Inactive, rows] at inactive
    exact .inl inactive

theorem sound_refl {d : Desk} {phs : List Phase} (watched : Watched d phs) : Sound d d :=
  sound_of_rows watched rfl (List.append_nil d.log).symm (fun _ he => absurd he List.not_mem_nil)

theorem sound_store {d : Desk} {phs : List Phase} (watched : Watched d phs) (c : CheckOutAnswers)
    (now : Int) : Sound d { d with rows := d.rows ++ [checkoutRow c now] } := by
  have kept : ∀ k, k < d.rows.length → (d.rows ++ [checkoutRow c now])[k]? = d.rows[k]? :=
    fun k hk => List.getElem?_append_left hk
  have within : ∀ k, d.rows[k]? ≠ none → k < d.rows.length := by
    intro k hk
    by_contra beyond
    exact hk (List.getElem?_eq_none (by omega))
  refine sound_of_quiet (List.append_nil d.log).symm (fun _ he => absurd he List.not_mem_nil) ?_ ?_ ?_
  · intro s hs
    apply notExtended_rfl watched hs
    obtain ⟨e, expires, -⟩ := watched.selected s hs
    apply kept
    apply within
    intro absent
    rw [expiresAt, absent] at expires
    cases expires
  · intro k inactive
    have row : k < d.rows.length := by
      apply within
      intro absent
      rw [Inactive, absent] at inactive
      cases inactive
    rw [Inactive, kept k row]
    exact inactive
  · intro k inactive
    by_cases row : k < d.rows.length
    · rw [Inactive, kept k row] at inactive
      exact .inl inactive
    · -- the new row is active
      rw [Inactive, List.getElem?_append_right (by omega)] at inactive
      cases offset : k - d.rows.length with
      | zero =>
        rw [offset] at inactive
        have status : some "active" = some "inactive" := inactive
        exact absurd status (by decide)
      | succ n =>
        rw [offset] at inactive
        cases inactive

/-- The same for an update that may only lower what it sets. -/
theorem notExtended_update {d d' : Desk} {phs : List Phase} (watched : Watched d phs)
    {sel : CheckoutRow → Bool} {f : CheckoutRow → CheckoutRow}
    (rows : d'.rows = updateWhere sel f d.rows) {s : Int × Nat} (hs : s ∈ selections d.log)
    (lower : ∀ r e, d.rows[s.2]? = some r → r.expiretime = some e → e ≤ s.1 → sel r = true →
      ∃ e', (f r).expiretime = some e' ∧ e' ≤ e) : NotExtended d d' s.2 := by
  obtain ⟨e, expires, bound⟩ := watched.selected s hs
  obtain ⟨r, row, time⟩ := Option.bind_eq_some_iff.mp expires
  have expires' : expiresAt d' s.2 = (if sel r then f r else r).expiretime := by
    rw [expiresAt, rows, getElem?_updateWhere, row]
    rfl
  cases chosen : sel r with
  | true =>
    obtain ⟨e', lowered, le⟩ := lower r e row time bound chosen
    rw [chosen, if_pos rfl, lowered] at expires'
    exact ⟨e, e', expires, expires', le⟩
  | false =>
    rw [chosen, if_neg Bool.false_ne_true, time] at expires'
    exact ⟨e, e, expires, expires', Int.le_refl e⟩

theorem inactive_update {d d' : Desk} {sel : CheckoutRow → Bool} {f : CheckoutRow → CheckoutRow}
    (rows : d'.rows = updateWhere sel f d.rows) {k : Nat} :
    Inactive d' k ↔ ∃ r, d.rows[k]? = some r ∧ (if sel r then f r else r).status = some "inactive" := by
  rw [Inactive, rows, getElem?_updateWhere]
  cases row : d.rows[k]? with
  | none => simp
  | some r => simp

/-- An update that leaves `status` alone. -/
theorem sound_of_update {d d' : Desk} {phs : List Phase} (watched : Watched d phs)
    {sel : CheckoutRow → Bool} {f : CheckoutRow → CheckoutRow} (same : ∀ r, (f r).status = r.status)
    (rows : d'.rows = updateWhere sel f d.rows) {es : List Event} (log : d'.log = d.log ++ es)
    (quiet : ∀ e ∈ es, Quiet e)
    (lower : ∀ s ∈ selections d.log, ∀ r e, d.rows[s.2]? = some r → r.expiretime = some e →
      e ≤ s.1 → sel r = true → ∃ e', (f r).expiretime = some e' ∧ e' ≤ e) : Sound d d' := by
  have status : ∀ r, (if sel r then f r else r).status = r.status := by
    intro r
    split
    · exact same r
    · rfl
  have inactive : ∀ k, Inactive d' k ↔ Inactive d k := by
    intro k
    rw [inactive_update rows, Inactive, Option.bind_eq_some_iff]
    simp only [status]
  apply sound_of_quiet log quiet
  · intro s hs
    exact notExtended_update watched rows hs (lower s hs)
  · intro k h
    exact (inactive k).mpr h
  · intro k h
    exact .inl ((inactive k).mp h)

theorem le_of_alive {now e : Int} {r : CheckoutRow} (time : r.expiretime = some e)
    (living : alive now r = true) : now ≤ e := by
  rw [alive, time] at living
  exact of_decide_eq_true living

/-- A button that comes after the sweeps finds none of their rows alive. -/
theorem sound_extend {d : Desk} {phs : List Phase} (watched : Watched d phs) {now : Int}
    {owner aduser : Option String}
    (after : AfterSweeps d now (fun r => sqlEq r.owner owner && sqlEq r.aduser aduser)) :
    Sound d (extended now owner aduser d) := by
  apply sound_of_update watched (f := extendRow) (fun _ => rfl) rfl rfl
  · intro e he
    rw [List.mem_singleton.mp he]
    trivial
  · intro s hs r e row time bound chosen
    rw [pressed, Bool.and_eq_true] at chosen
    have late : s.1 < now := after s hs r row chosen.1
    have living : now ≤ e := le_of_alive time chosen.2
    omega

theorem sound_expire {d : Desk} {phs : List Phase} (watched : Watched d phs) {set now : Int}
    (order : set ≤ now) (owner aduser : Option String) : Sound d (ended set now owner aduser d) := by
  refine sound_of_update watched (f := fun r => { r with expiretime := some set }) (fun _ => rfl) rfl
    (List.append_nil d.log).symm (fun _ he => absurd he List.not_mem_nil) ?_
  intro s hs r e row time bound chosen
  rw [pressed, Bool.and_eq_true] at chosen
  have living : now ≤ e := le_of_alive time chosen.2
  exact ⟨set, rfl, by omega⟩

theorem sound_close {d : Desk} {phs : List Phase} (watched : Watched d phs) {aduser : Option String}
    (known : ∀ k ∈ positions (fun x => sqlEq x.aduser aduser) d.rows, ∃ s ∈ selections d.log, s.2 = k) :
    Sound d (closed aduser d) := by
  have rows : (closed aduser d).rows = updateWhere (fun x => sqlEq x.aduser aduser) close d.rows := rfl
  refine sound_of_quiet rfl ?_ ?_ ?_ ?_
  · intro e he
    rw [List.mem_singleton.mp he]
    trivial
  · intro s hs
    apply notExtended_update watched rows hs
    intro r e row time bound chosen
    exact ⟨e, time, Int.le_refl e⟩
  · intro k inactive
    obtain ⟨r, row, status⟩ := Option.bind_eq_some_iff.mp inactive
    refine (inactive_update rows).mpr ⟨r, row, ?_⟩
    split
    · rfl
    · exact status
  · intro k inactive
    obtain ⟨r, row, status⟩ := (inactive_update rows).mp inactive
    cases chosen : sqlEq r.aduser aduser with
    | true => exact .inr (known k (mem_positions.mpr ⟨r, row, chosen⟩))
    | false =>
      rw [chosen, if_neg Bool.false_ne_true] at status
      exact .inl (Option.bind_eq_some_iff.mpr ⟨r, row, status⟩)

theorem sound_list {d : Desk} {phs : List Phase} (watched : Watched d phs) {now : Int}
    {uid : Option String} (after : AfterSweeps d now (fun r => sqlEq r.owner uid)) :
    Sound d (note (.listed now uid (positions (offered uid now) d.rows)) d) where
  log := ⟨_, rfl⟩
  older s hs := notExtended_rfl watched hs rfl
  unlisted s hs now' uid' rows hlisted hk := by
    simp only [note, List.drop_left, List.mem_singleton] at hlisted
    cases hlisted
    obtain ⟨r, row, chosen⟩ := mem_positions.mp hk
    rw [offered, Bool.and_eq_true] at chosen
    obtain ⟨e, expires, bound⟩ := watched.selected s hs
    rw [expiresAt, row] at expires
    have late : s.1 < now := after s hs r row chosen.1
    have living : now ≤ e := le_of_alive expires chosen.2
    omega
  fresh s hs := by
    simp only [note, selections_append] at hs
    exact .inl (by simpa [selections] using hs)
  stays k inactive := inactive
  closes k inactive := .inl inactive

/-- A selected row is past its time. -/
theorem sound_select {d : Desk} {phs : List Phase} (watched : Watched d phs) (t : Int) :
    Sound d (note (.selected t ((picked t d.rows).map Prod.snd)) d) where
  log := ⟨_, rfl⟩
  older s hs := notExtended_rfl watched hs rfl
  unlisted s _ now uid rows hlisted := by
    simp only [note, List.drop_left, List.mem_singleton] at hlisted
    cases hlisted
  fresh s hs := by
    simp only [note, selections_append, List.mem_append] at hs
    refine hs.imp_right (fun new => ?_)
    simp only [selections, List.flatMap_cons, List.flatMap_nil, List.append_nil, List.mem_map] at new
    obtain ⟨k, ⟨⟨r, j⟩, chosen, rfl⟩, rfl⟩ := new
    obtain ⟨mem, ended⟩ := List.mem_filter.mp chosen
    have row : d.rows[j]? = some r := List.mem_zipIdx_iff_getElem?.mp mem
    rw [expired, Bool.and_eq_true] at ended
    obtain ⟨e, time, bound⟩ := (Option.any_eq_true _ _).mp ended.2
    exact ⟨e, Option.bind_eq_some_iff.mpr ⟨r, row, time⟩, of_decide_eq_true bound⟩
  stays k inactive := inactive
  closes k inactive := .inl inactive

theorem sound_move {cfg : Config} {d d' : Desk} {before after : List Phase} {ph ph' : Phase}
    (watched : Watched d (before ++ ph :: after)) (move : Move cfg ph d d' ph')
    (timely : Timely d d') : Sound d d' := by
  have inOrder : InOrder d.clock ph :=
    watched.phases ph (List.mem_append_right _ List.mem_cons_self)
  have alone : ∀ e, Quiet e → ∀ e' ∈ [e], Quiet e' := by
    intro e quiet e' he'
    rw [List.mem_singleton.mp he']
    exact quiet
  cases move with
  | rest => exact sound_refl watched
  | clock => exact sound_refl watched
  | clockAgain set => exact sound_refl watched
  | create c => exact sound_of_rows watched rfl rfl (alone _ trivial)
  | store c now => exact sound_store watched c now
  | extend now owner aduser => exact sound_extend watched (inTime_of_note timely rfl)
  | expire set now owner aduser => exact sound_expire watched inOrder owner aduser
  | list now uid => exact sound_list watched (inTime_of_note timely rfl)
  | select t => exact sound_select watched t
  | search mem name controller => exact sound_of_rows watched rfl rfl (alone _ trivial)
  | destroy t rows sam i dn todo =>
    exact sound_of_rows watched rfl (List.append_nil d.log).symm
      (fun _ he => absurd he List.not_mem_nil)
  | refuse => exact sound_of_rows watched rfl rfl (alone _ trivial)
  | close mem may => exact sound_close watched (inTime_of_note timely rfl)

/-! ## Whole runs -/

/-- No move sets the clock, and a value just read is the clock's. -/
theorem inOrder_move {cfg : Config} {d d' : Desk} {ph ph' : Phase} (move : Move cfg ph d d' ph')
    (inOrder : InOrder d.clock ph) : d'.clock = d.clock ∧ InOrder d'.clock ph' := by
  cases move with
  | clock => exact ⟨rfl, Int.le_refl _⟩
  | clockAgain set => exact ⟨rfl, inOrder⟩
  | rest | create | store | extend | expire | list | select | search | destroy | refuse | close =>
    exact ⟨rfl, trivial⟩

theorem selections_mono {log log' : List Event} (grown : log <+: log') {s : Int × Nat}
    (hs : s ∈ selections log) : s ∈ selections log' := by
  obtain ⟨new, rfl⟩ := grown
  rw [selections_append]
  exact List.mem_append_left _ hs

theorem watched_of_sound {d d' : Desk} {phs phs' : List Phase} (watched : Watched d phs)
    (sound : Sound d d') (phases : ∀ ph ∈ phs', InOrder d'.clock ph) : Watched d' phs' where
  selected s hs := by
    rcases sound.fresh s hs with old | new
    · obtain ⟨e, expires, bound⟩ := watched.selected s old
      obtain ⟨e₀, e', expires₀, expires', le⟩ := sound.older s old
      rw [expires] at expires₀
      cases expires₀
      exact ⟨e', expires', by omega⟩
    · exact new
  swept k inactive := by
    have known : ∃ s ∈ selections d.log, s.2 = k := by
      rcases sound.closes k inactive with already | known
      · exact watched.swept k already
      · exact known
    obtain ⟨s, hs, row⟩ := known
    exact ⟨s, selections_mono sound.log hs, row⟩
  phases := phases

theorem watched_move {cfg : Config} {d d' : Desk} {before after : List Phase} {ph ph' : Phase}
    (watched : Watched d (before ++ ph :: after)) (move : Move cfg ph d d' ph')
    (timely : Timely d d') : Watched d' (before ++ ph' :: after) := by
  have inOrder := watched.phases ph (List.mem_append_right _ List.mem_cons_self)
  obtain ⟨clock, inOrder'⟩ := inOrder_move move inOrder
  apply watched_of_sound watched (sound_move watched move timely)
  intro q hq
  rcases List.mem_append.mp hq with hq | hq
  · rw [clock]
    exact watched.phases q (List.mem_append_left _ hq)
  · rcases List.mem_cons.mp hq with rfl | hq
    · exact inOrder'
    · rw [clock]
      exact watched.phases q (List.mem_append_right _ (List.mem_cons_of_mem _ hq))

theorem watched_ticks {d d' : Desk} {phs : List Phase} (watched : Watched d phs)
    (ticks : Ticks d d') : Watched d' phs := by
  obtain ⟨t, later, rfl⟩ := ticks
  refine ⟨watched.selected, watched.swept, fun ph hph => ?_⟩
  have inOrder := watched.phases ph hph
  cases ph with
  | timed now => exact Int.le_trans inOrder later
  | twice set now => exact inOrder
  | idle | sweeping | deleting | spoiled => trivial

theorem reachable_watched {cfg : Config} {start : Desk} (fresh : start.rows = [])
    (unlogged : start.log = []) {P : Pool Desk Exn Unit}
    (reach : Reachable (Spawned cfg) Ticks Timely start P) :
    ∃ phs, Tracks (Move cfg) anyEnd P.threads phs ∧ Watched P.shared phs := by
  have init : Watched start [] := by
    constructor
    · intro s hs
      rw [unlogged] at hs
      cases hs
    · intro k inactive
      rw [Inactive, fresh] at inactive
      cases inactive
    · intro ph hph
      cases hph
  have arrive : ∀ d phs, Watched d phs → Watched d (phs ++ [.idle]) := by
    intro d phs watched
    refine ⟨watched.selected, watched.swept, fun ph hph => ?_⟩
    rcases List.mem_append.mp hph with old | new
    · exact watched.phases ph old
    · rw [List.mem_singleton.mp new]
      trivial
  exact reachable_invariant Watched (fun _ spawned => conforms_spawned spawned) init
    (fun _ _ _ _ _ _ watched move timely => watched_move watched move timely) arrive
    (fun _ _ _ watched ticks _ => watched_ticks watched ticks) reach

/-- What two states of a run have to do with each other. -/
def Since (d d' : Desk) : Prop :=
  d.log <+: d'.log ∧ ∀ k, Inactive d k → Inactive d' k ∧ StaysDead d d' k

theorem notListed_trans {d d' d'' : Desk} {k : Nat} (grown : d.log <+: d'.log)
    (grown' : d'.log <+: d''.log) (first : NotListed d d' k) (second : NotListed d' d'' k) :
    NotListed d d'' k := by
  obtain ⟨new, log⟩ := grown
  obtain ⟨new', log'⟩ := grown'
  intro now uid rows hlisted
  rw [← log', ← log, List.append_assoc, List.drop_left] at hlisted
  rcases List.mem_append.mp hlisted with early | late
  · apply first now uid rows
    rw [← log, List.drop_left]
    exact early
  · apply second now uid rows
    rw [← log', List.drop_left]
    exact late

theorem since_trans {d d' d'' : Desk} (first : Since d d') (second : Since d' d'') : Since d d'' := by
  refine ⟨first.1.trans second.1, fun k inactive => ?_⟩
  obtain ⟨inactive', ⟨e, e', expires, expires', le⟩, unlisted⟩ := first.2 k inactive
  obtain ⟨inactive'', ⟨e₁, e'', expires₁, expires'', le'⟩, unlisted'⟩ := second.2 k inactive'
  rw [expires'] at expires₁
  cases expires₁
  exact ⟨inactive'', ⟨e, e'', expires, expires'', by omega⟩,
    notListed_trans first.1 second.1 unlisted unlisted'⟩

theorem since_of_sound {d d' : Desk} {phs : List Phase} (watched : Watched d phs)
    (sound : Sound d d') : Since d d' := by
  refine ⟨sound.log, fun k inactive => ?_⟩
  obtain ⟨s, hs, rfl⟩ := watched.swept k inactive
  exact ⟨sound.stays s.2 inactive, sound.older s hs, sound.unlisted s hs⟩

theorem since_ticks {d d' : Desk} {phs : List Phase} (watched : Watched d phs) (ticks : Ticks d d') :
    Since d d' := by
  obtain ⟨t, -, rfl⟩ := ticks
  exact since_of_sound watched (sound_of_rows watched rfl (List.append_nil d.log).symm
    (fun _ he => absurd he List.not_mem_nil))

/-- In every run whose clicks come after the sweeps, a closed row is never listed again and its
lifetime never grows. -/
theorem swept_stays_dead {cfg : Config} {start : Desk} (fresh : start.rows = [])
    (unlogged : start.log = []) {P P' : Pool Desk Exn Unit}
    (reach : Reachable (Spawned cfg) Ticks Timely start P)
    (later : Continues (Spawned cfg) Ticks Timely P P') {k : Nat} (inactive : Inactive P.shared k) :
    StaysDead P.shared P'.shared k := by
  have since : Since P.shared P'.shared :=
    continues_related Watched (fun _ spawned => conforms_spawned spawned)
      (fun reach' => reachable_watched fresh unlogged reach')
      (fun _ _ watched => since_of_sound watched (sound_refl watched))
      (fun _ _ _ first second => since_trans first second)
      (fun _ _ _ _ _ _ watched move timely => since_of_sound watched (sound_move watched move timely))
      (fun _ _ _ watched ticks _ => since_ticks watched ticks) reach later
  exact (since.2 k inactive).2

/-! ## A checkout that ends while the sweep runs -/

instance (d : Desk) (now : Int) (touched : CheckoutRow → Bool) :
    Decidable (AfterSweeps d now touched) :=
  inferInstanceAs (Decidable (∀ s ∈ selections d.log, ∀ r ∈ d.rows[s.2]?, touched r = true → s.1 < now))

instance (d : Desk) : DecidablePred (InTime d)
  | .extended now owner aduser => inferInstanceAs (Decidable (AfterSweeps d now
      (fun r => sqlEq r.owner owner && sqlEq r.aduser aduser)))
  | .listed now uid _ => inferInstanceAs (Decidable (AfterSweeps d now (fun r => sqlEq r.owner uid)))
  | .closed rows => inferInstanceAs (Decidable (∀ k ∈ rows, ∃ s ∈ selections d.log, s.2 = k))
  | .created .. | .selected .. | .searched .. | .refused => instDecidableTrue

instance : DecidableRel Timely := fun d d' =>
  inferInstanceAs (Decidable (∀ e ∈ d'.log.drop d.log.length, InTime d e))

def checkedOut : Pool Desk Exn Unit :=
  [0, 0, 0].foldl Pool.turn ⟨emptyDesk, [checkOut sampleConfig patsCheckout]⟩

def quietSweep : SweepAnswers where
  select := false
  delete := fun _ => ⟨0, false, fun _ _ => false⟩
  update := fun _ => false

/-- A sweep and Pat's page, both begun when the checkout has just run out. -/
def lastMoment : Pool Desk Exn Unit :=
  ⟨{ checkedOut.shared with clock := 14400000 },
    checkedOut.threads ++ [run sampleConfig quietSweep false] ++
      [do let _ ← getAvailableCheckedOutUsers false (some "pat@example.edu")]⟩

/-- The sweep runs to its end. -/
def swept : Pool Desk Exn Unit := (List.replicate 5 1).foldl Pool.turn lastMoment

theorem reachable_swept :
    Reachable (Spawned sampleConfig) Ticks Timely emptyDesk swept := by
  have opened : Reachable (Spawned sampleConfig) Ticks Timely emptyDesk
      ⟨emptyDesk, [checkOut sampleConfig patsCheckout]⟩ :=
    reachable_spawn .refl (.checkOut patsCheckout) (by decide +kernel)
  have timely : Pool.Along Timely
      ⟨emptyDesk, [checkOut sampleConfig patsCheckout]⟩ [0, 0, 0] := by decide +kernel
  have stored : Reachable (Spawned sampleConfig) Ticks Timely emptyDesk checkedOut :=
    reachable_turns opened timely
  have late := reachable_env stored (t := { checkedOut.shared with clock := 14400000 })
    ⟨14400000, by decide +kernel, rfl⟩ (by decide +kernel)
  have sweeping := reachable_spawn late (.sweep quietSweep false) (by decide +kernel)
  have listing := reachable_spawn sweeping (.list false (some "pat@example.edu"))
    (by decide +kernel)
  have onTime : lastMoment.Along Timely (List.replicate 5 1) := by decide +kernel
  exact reachable_turns listing onTime

/-- A millisecond later the page no longer has the checkout. -/
theorem late_page_leaves_swept_dead :
    let waiting : Pool Desk Exn Unit := ⟨{ swept.shared with clock := 14400001 }, swept.threads⟩
    let P := [2, 2].foldl Pool.turn waiting
    Inactive swept.shared 0 ∧ StaysDead swept.shared P.shared 0 := by
  intro waiting P
  have inactive : Inactive swept.shared 0 := by
    unfold Inactive
    decide +kernel
  have timely : waiting.Along Timely [2, 2] := by decide +kernel
  have ticked : Continues (Spawned sampleConfig) Ticks Timely swept waiting :=
    .single ⟨.env ⟨14400001, by decide +kernel, rfl⟩, by decide +kernel⟩
  have later : Continues (Spawned sampleConfig) Ticks Timely swept P :=
    Relation.ReflTransGen.trans ticked (continues_turns timely)
  exact ⟨inactive, swept_stays_dead rfl rfl reachable_swept later inactive⟩

/-- In the same millisecond the page still lists the row that the sweep has closed. -/
theorem page_lists_swept_row :
    ¬ ∀ P P' k, Reachable (Spawned sampleConfig) Ticks (fun _ _ => True) emptyDesk P →
      Continues (Spawned sampleConfig) Ticks (fun _ _ => True) P P' → Inactive P.shared k →
      StaysDead P.shared P'.shared k := by
  intro claim
  let P := [2, 2].foldl Pool.turn swept
  have inactive : Inactive swept.shared 0 := by
    unfold Inactive
    decide +kernel
  have later : Continues (Spawned sampleConfig) Ticks (fun _ _ => True) swept P :=
    continues_turns (swept.along_true [2, 2])
  have dead := claim swept P 0 (reachable_swept.weaken (fun _ _ _ => trivial)) later inactive
  have returned : Event.listed 14400000 (some "pat@example.edu") [0] ∈
      P.shared.log.drop swept.shared.log.length := by
    decide +kernel
  exact dead.2 _ _ _ returned (List.mem_singleton_self 0)

end SweptRows
