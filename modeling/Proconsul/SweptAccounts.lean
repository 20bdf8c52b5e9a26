import Proconsul.CheckoutDesk

/-!
# A closed checkout and its account

The sweep closes a row whatever `deleteAdUser` has achieved, so that a refused
call leaves a closed row with a live account. Where no controller refuses a
call, where the controller that is searched knows every account of the name,
and where nobody creates an account under the name of an existing row, a row
is closed only when its account is gone from every controller.
-/

namespace SweptAccounts

open Program Schema Text Surroundings Hosts Interleaving CheckoutDesk
open Checkout (extendRow)

/-! ## The property and the condition -/

/-- No controller has an account of that name. -/
def Gone (cfg : Config) (d : Desk) (aduser : Option String) : Prop :=
  ∀ i < cfg.dcs, ∀ a ∈ d.held i, sqlEq aduser (some a.sam) = false

def ClosedWhenGone (cfg : Config) (d : Desk) : Prop :=
  ∀ r ∈ d.rows, sqlEq r.status (some "inactive") = true → Gone cfg d r.aduser

/-- What the event needs of the state it happens in. -/
def Admits (cfg : Config) (d : Desk) : Event → Prop
  | .created sam => ∀ r ∈ d.rows, sqlEq r.aduser (some sam) = false
  | .searched controller sam => ∀ i < cfg.dcs, ∀ a ∈ d.held i, named sam a = true →
      ∃ b ∈ d.held controller, named sam b = true ∧ dnEq a.dn b.dn = true
  | .refused => False
  | _ => True

/-- Every event of the step is admitted. -/
def Answered (cfg : Config) (d d' : Desk) : Prop :=
  ∀ e ∈ d'.log.drop d.log.length, Admits cfg d e

theorem admits_of_note {cfg : Config} {d d' : Desk} {e : Event} (answered : Answered cfg d d')
    (logged : d'.log = d.log ++ [e]) : Admits cfg d e := by
  refine answered e ?_
  rw [logged, List.drop_left]
  exact List.mem_singleton_self e

/-! ## The invariant -/

/-- The rows that a sweep has selected are still there. -/
def Kept (d : Desk) (rows : List (CheckoutRow × Nat)) : Prop :=
  ∀ r ∈ rows, ∃ x ∈ d.rows, x.aduser = r.1.aduser

/-- An account that a sweep is deleting has a row, and is left only where it is still to do. -/
def Fine (cfg : Config) (d : Desk) : Phase → Prop
  | .sweeping _ rows => Kept d rows
  | .deleting _ rows sam todo => Kept d rows ∧ (∃ x ∈ d.rows, x.aduser = some sam) ∧
      ∀ i < cfg.dcs, ∀ a ∈ d.held i, named sam a = true →
        ∃ dn, (i, dn) ∈ todo ∧ dnEq a.dn dn = true
  | .spoiled _ _ => False
  | _ => True

structure Tidy (cfg : Config) (d : Desk) (phs : List Phase) : Prop where
  closed : ClosedWhenGone cfg d
  nonempty : ∀ r ∈ d.rows, given r.aduser ≠ none
  phases : ∀ ph ∈ phs, Fine cfg d ph

/-- Names stay in the table, and no account of such a name appears. -/
structure Tame (d d' : Desk) : Prop where
  rows : ∀ x ∈ d.rows, ∃ x' ∈ d'.rows, x'.aduser = x.aduser
  held : ∀ i, ∀ a ∈ d'.held i, a ∈ d.held i ∨ ∀ x ∈ d.rows, sqlEq x.aduser (some a.sam) = false

theorem Kept.of_tame {d d' : Desk} (tame : Tame d d') {rows : List (CheckoutRow × Nat)}
    (kept : Kept d rows) : Kept d' rows := by
  intro r hr
  obtain ⟨x, hx, same⟩ := kept r hr
  obtain ⟨x', hx', same'⟩ := tame.rows x hx
  exact ⟨x', hx', same'.trans same⟩

theorem fine_of_tame {cfg : Config} {d d' : Desk} (tame : Tame d d') {ph : Phase}
    (fine : Fine cfg d ph) : Fine cfg d' ph := by
  cases ph with
  | idle => trivial
  | timed now => trivial
  | twice set now => trivial
  | spoiled t rows => exact fine
  | sweeping t rows => exact fine.of_tame tame
  | deleting t rows sam todo =>
    obtain ⟨kept, ⟨x, hx, name⟩, left⟩ := fine
    refine ⟨kept.of_tame tame, ?_, ?_⟩
    · obtain ⟨x', hx', same⟩ := tame.rows x hx
      exact ⟨x', hx', same.trans name⟩
    · intro i hi a ha hn
      rcases tame.held i a ha with old | new
      · exact left i hi a old hn
      · have other := new x hx
        rw [name] at other
        rw [sqlEq_symm hn] at other
        cases other

theorem tame_of_held {d d' : Desk} (rows : d'.rows = d.rows)
    (held : ∀ i, ∀ a ∈ d'.held i, a ∈ d.held i) : Tame d d' where
  rows x hx := ⟨x, rows ▸ hx, rfl⟩
  held i a ha := .inl (held i a ha)

/-- An update that leaves the names alone. -/
theorem tame_of_update {d d' : Desk} {sel : CheckoutRow → Bool} {f : CheckoutRow → CheckoutRow}
    (same : ∀ r, (f r).aduser = r.aduser) (rows : d'.rows = updateWhere sel f d.rows)
    (held : d'.held = d.held) : Tame d d' where
  rows x hx := by
    refine ⟨if sel x then f x else x, ?_, ?_⟩
    · rw [rows]
      exact List.mem_map_of_mem hx
    · split
      · exact same x
      · rfl
  held i a ha := .inl (held ▸ ha)

theorem closedWhenGone_of_update {cfg : Config} {d d' : Desk} {sel : CheckoutRow → Bool}
    {f : CheckoutRow → CheckoutRow} (closed : ClosedWhenGone cfg d)
    (same : ∀ r, (f r).aduser = r.aduser ∧ (f r).status = r.status)
    (rows : d'.rows = updateWhere sel f d.rows) (held : d'.held = d.held) :
    ClosedWhenGone cfg d' := by
  intro r hr inactive i hi a ha
  rw [rows] at hr
  obtain ⟨x, hx, rfl⟩ := List.mem_map.mp hr
  have unchanged : (if sel x then f x else x).aduser = x.aduser ∧
      (if sel x then f x else x).status = x.status := by
    split
    · exact same x
    · exact ⟨rfl, rfl⟩
  rw [unchanged.2] at inactive
  rw [unchanged.1]
  rw [held] at ha
  exact closed x hx inactive i hi a ha

theorem nonempty_of_update {d d' : Desk} {sel : CheckoutRow → Bool}
    {f : CheckoutRow → CheckoutRow} (nonempty : ∀ r ∈ d.rows, given r.aduser ≠ none)
    (same : ∀ r, (f r).aduser = r.aduser) (rows : d'.rows = updateWhere sel f d.rows) :
    ∀ r ∈ d'.rows, given r.aduser ≠ none := by
  intro r hr
  rw [rows] at hr
  obtain ⟨x, hx, rfl⟩ := List.mem_map.mp hr
  split
  · rw [same]
    exact nonempty x hx
  · exact nonempty x hx

/-- The moving program's new phase, beside phases that a tame step leaves fine. -/
theorem Tidy.step {cfg : Config} {d d' : Desk} {before after : List Phase} {ph ph' : Phase}
    (tidy : Tidy cfg d (before ++ ph :: after)) (tame : Tame d d') (closed : ClosedWhenGone cfg d')
    (nonempty : ∀ r ∈ d'.rows, given r.aduser ≠ none) (fine : Fine cfg d' ph') :
    Tidy cfg d' (before ++ ph' :: after) where
  closed := closed
  nonempty := nonempty
  phases q hq := by
    rcases List.mem_append.mp hq with hq | hq
    · exact fine_of_tame tame (tidy.phases q (List.mem_append_left _ hq))
    · rcases List.mem_cons.mp hq with rfl | hq
      · exact fine
      · exact fine_of_tame tame
          (tidy.phases q (List.mem_append_right _ (List.mem_cons_of_mem _ hq)))

/-- A step that leaves rows and accounts alone. -/
theorem Tidy.idle {cfg : Config} {d d' : Desk} {before after : List Phase} {ph ph' : Phase}
    (tidy : Tidy cfg d (before ++ ph :: after)) (rows : d'.rows = d.rows) (held : d'.held = d.held)
    (fine : Fine cfg d' ph') : Tidy cfg d' (before ++ ph' :: after) := by
  refine tidy.step (tame_of_held rows (fun i a ha => held ▸ ha)) ?_ ?_ fine
  · intro r hr inactive i hi a ha
    rw [rows] at hr
    rw [held] at ha
    exact tidy.closed r hr inactive i hi a ha
  · rw [rows]
    exact tidy.nonempty

theorem given_accountName (stem : String) : given (some (accountName stem)) ≠ none := by
  have visible : accountName stem ≠ "" := by
    intro empty
    have length := congrArg String.length empty
    simp [accountName] at length
  rw [given_some visible]
  simp

theorem tidy_create {cfg : Config} {d : Desk} {before after : List Phase} {ph : Phase}
    (c : CheckOutAnswers) (tidy : Tidy cfg d (before ++ ph :: after))
    (free : ∀ r ∈ d.rows, sqlEq r.aduser (some (accountName c.stem)) = false) :
    Tidy cfg (created cfg c d) (before ++ .idle :: after) := by
  have added : ∀ i, ∀ a ∈ (created cfg c d).held i,
      a ∈ d.held i ∨ a = newEntry cfg (accountName c.stem) := by
    intro i a ha
    simp only [created, note, adding] at ha
    split at ha
    · rcases List.mem_append.mp ha with old | new
      · exact .inl old
      · exact .inr (List.mem_singleton.mp new)
    · exact .inl ha
  have tame : Tame d (created cfg c d) := by
    refine ⟨fun x hx => ⟨x, hx, rfl⟩, fun i a ha => ?_⟩
    rcases added i a ha with old | rfl
    · exact .inl old
    · exact .inr free
  refine tidy.step tame ?_ tidy.nonempty trivial
  intro r hr inactive i hi a ha
  rcases added i a ha with old | rfl
  · exact tidy.closed r hr inactive i hi a old
  · exact free r hr

theorem tidy_store {cfg : Config} {d : Desk} {before after : List Phase} {ph : Phase}
    (c : CheckOutAnswers) (now : Int) (tidy : Tidy cfg d (before ++ ph :: after)) :
    Tidy cfg { d with rows := d.rows ++ [checkoutRow c now] } (before ++ .idle :: after) := by
  have tame : Tame d { d with rows := d.rows ++ [checkoutRow c now] } :=
    ⟨fun x hx => ⟨x, List.mem_append_left _ hx, rfl⟩, fun i a ha => .inl ha⟩
  refine tidy.step tame ?_ ?_ trivial
  · intro r hr inactive i hi a ha
    rcases List.mem_append.mp hr with old | new
    · exact tidy.closed r old inactive i hi a ha
    · rw [List.mem_singleton.mp new] at inactive
      change sqlEq (some "active") (some "inactive") = true at inactive
      exact absurd inactive (by decide)
  · intro r hr
    rcases List.mem_append.mp hr with old | new
    · exact tidy.nonempty r old
    · rw [List.mem_singleton.mp new]
      exact given_accountName c.stem

/-- A deleted DN is no longer to do. -/
theorem tidy_destroy {cfg : Config} {d : Desk} {before after : List Phase} {t : Int}
    {rows : List (CheckoutRow × Nat)} {sam dn : String} {i : Nat} {todo : List (Nat × String)}
    (tidy : Tidy cfg d (before ++ .deleting t rows sam ((i, dn) :: todo) :: after)) :
    Tidy cfg { d with held := without i dn d.held }
      (before ++ .deleting t rows sam todo :: after) := by
  have fewer : ∀ j, ∀ a ∈ without i dn d.held j, a ∈ d.held j := by
    intro j a ha
    rw [without] at ha
    split at ha
    · exact (List.mem_filter.mp ha).1
    · exact ha
  have tame : Tame d { d with held := without i dn d.held } := tame_of_held rfl fewer
  obtain ⟨kept, listed, left⟩ : Fine cfg d (.deleting t rows sam ((i, dn) :: todo)) :=
    tidy.phases _ (List.mem_append_right _ List.mem_cons_self)
  refine tidy.step tame ?_ tidy.nonempty ⟨kept.of_tame tame, listed, ?_⟩
  · intro r hr inactive j hj a ha
    exact tidy.closed r hr inactive j hj a (fewer j a ha)
  · intro j hj a ha hn
    obtain ⟨dn', mem, same⟩ := left j hj a (fewer j a ha) hn
    rcases List.mem_cons.mp mem with here | later
    · cases here
      simp only [without, if_true] at ha
      have survived := (List.mem_filter.mp ha).2
      rw [same] at survived
      cases survived
    · exact ⟨dn', later, same⟩

theorem gone_of_sqlEq {cfg : Config} {d : Desk} {aduser aduser' : Option String}
    (same : sqlEq aduser' aduser = true) (gone : Gone cfg d aduser) : Gone cfg d aduser' := by
  intro i hi a ha
  rw [Bool.eq_false_iff]
  intro live
  have dead := gone i hi a ha
  rw [sqlEq_trans (sqlEq_symm same) live] at dead
  cases dead

/-- The right to close comes with an account that is gone. -/
theorem gone_of_mayClose {cfg : Config} (placed : cfg.domain ≠ "") {d : Desk}
    {aduser : Option String} (nonempty : given aduser ≠ none) {t : Int}
    {rows : List (CheckoutRow × Nat)} {ph : Phase} (may : MayClose cfg aduser t rows ph)
    (fine : Fine cfg d ph) : Kept d rows ∧ Gone cfg d aduser := by
  cases may with
  | deleted name =>
    obtain ⟨kept, -, left⟩ := fine
    refine ⟨kept, fun i hi a ha => ?_⟩
    rw [Bool.eq_false_iff]
    intro live
    rw [name] at live
    obtain ⟨dn, mem, -⟩ := left i hi a ha (sqlEq_symm live)
    cases mem
  | skipped h =>
    rcases h with unnamed | unplaced
    · exact absurd unnamed nonempty
    · exact absurd unplaced placed
  | refused => exact fine.elim

theorem tidy_close {cfg : Config} (placed : cfg.domain ≠ "") {d : Desk} {before after : List Phase}
    {ph : Phase} {t : Int} {rows : List (CheckoutRow × Nat)} {r : CheckoutRow × Nat} (mem : r ∈ rows)
    (may : MayClose cfg r.1.aduser t rows ph) (tidy : Tidy cfg d (before ++ ph :: after)) :
    Tidy cfg (closed r.1.aduser d) (before ++ .sweeping t rows :: after) := by
  have fine : Fine cfg d ph := tidy.phases _ (List.mem_append_right _ List.mem_cons_self)
  have kept : Kept d rows := by
    cases may with
    | deleted name => exact fine.1
    | skipped h => exact fine
    | refused => exact fine.elim
  obtain ⟨x, hx, name⟩ := kept r mem
  obtain ⟨-, gone⟩ := gone_of_mayClose placed (name ▸ tidy.nonempty x hx) may fine
  have tame : Tame d (closed r.1.aduser d) :=
    tame_of_update (f := close) (fun _ => rfl) rfl rfl
  refine tidy.step tame ?_ (nonempty_of_update (f := close) tidy.nonempty (fun _ => rfl) rfl)
    (kept.of_tame tame)
  intro r' hr' inactive
  obtain ⟨y, hy, rfl⟩ := List.mem_map.mp hr'
  cases selected : sqlEq y.aduser r.1.aduser with
  | true =>
    simp only [selected, if_true]
    exact gone_of_sqlEq selected gone
  | false =>
    simp only [selected, Bool.false_eq_true, if_false] at inactive ⊢
    exact tidy.closed y hy inactive

/-- Every move of the protocol keeps the invariant. -/
theorem tidy_move {cfg : Config} (placed : cfg.domain ≠ "") {d d' : Desk}
    {before after : List Phase} {ph ph' : Phase} (tidy : Tidy cfg d (before ++ ph :: after))
    (move : Move cfg ph d d' ph') (answered : Answered cfg d d') :
    Tidy cfg d' (before ++ ph' :: after) := by
  cases move with
  | rest => exact tidy.idle rfl rfl trivial
  | clock => exact tidy.idle rfl rfl trivial
  | clockAgain set => exact tidy.idle rfl rfl trivial
  | create c => exact tidy_create c tidy (admits_of_note answered rfl)
  | store c now => exact tidy_store c now tidy
  | extend now owner aduser =>
    refine tidy.step (tame_of_update (f := extendRow) (fun _ => rfl) rfl rfl) ?_ ?_ trivial
    · exact closedWhenGone_of_update (f := extendRow) tidy.closed (fun _ => ⟨rfl, rfl⟩) rfl rfl
    · exact nonempty_of_update (f := extendRow) tidy.nonempty (fun _ => rfl) rfl
  | expire set now owner aduser =>
    refine tidy.step (tame_of_update (f := fun r => { r with expiretime := some set })
      (fun _ => rfl) rfl rfl) ?_ ?_ trivial
    · exact closedWhenGone_of_update (f := fun r => { r with expiretime := some set }) tidy.closed
        (fun _ => ⟨rfl, rfl⟩) rfl rfl
    · exact nonempty_of_update (f := fun r => { r with expiretime := some set }) tidy.nonempty
        (fun _ => rfl) rfl
  | list now uid => exact tidy.idle rfl rfl trivial
  | select t =>
    refine tidy.idle rfl rfl (fun r hr => ?_)
    have mem : r ∈ d.rows.zipIdx := (List.mem_filter.mp hr).1
    exact ⟨r.1, List.fst_mem_of_mem_zipIdx mem, rfl⟩
  | search mem name controller =>
    rename_i t rows r sam
    have kept : Kept d rows := tidy.phases _ (List.mem_append_right _ List.mem_cons_self)
    have known := admits_of_note answered rfl
    obtain ⟨x, hx, same⟩ := kept r mem
    refine tidy.idle rfl rfl ⟨kept, ⟨x, hx, same.trans name⟩, ?_⟩
    intro i hi a ha hn
    obtain ⟨b, hb, named', same⟩ := known i hi a ha hn
    refine ⟨b.dn, ?_, same⟩
    refine List.mem_flatMap.mpr ⟨b.dn, ?_, List.mem_map.mpr ⟨i, List.mem_range.mpr hi, rfl⟩⟩
    exact List.mem_map_of_mem (List.mem_filter.mpr ⟨hb, named'⟩)
  | destroy t rows sam i dn todo => exact tidy_destroy tidy
  | refuse => exact (admits_of_note answered rfl).elim
  | close mem may => exact tidy_close placed mem may tidy

/-! ## Whole runs -/

/-- In every run in which deletions are answered, a closed row's account is gone. -/
theorem closed_only_when_gone {cfg : Config} (placed : cfg.domain ≠ "") {start : Desk}
    (fresh : start.rows = []) {P : Pool Desk Exn Unit}
    (reach : Reachable (Spawned cfg) Ticks (Answered cfg) start P) :
    ClosedWhenGone cfg P.shared := by
  have init : Tidy cfg start [] := by
    constructor
    · intro r hr
      rw [fresh] at hr
      cases hr
    · intro r hr
      rw [fresh] at hr
      cases hr
    · intro ph hph
      cases hph
  have arrive : ∀ d phs, Tidy cfg d phs → Tidy cfg d (phs ++ [.idle]) := by
    intro d phs tidy
    refine ⟨tidy.closed, tidy.nonempty, fun ph hph => ?_⟩
    rcases List.mem_append.mp hph with old | new
    · exact tidy.phases ph old
    · rw [List.mem_singleton.mp new]
      trivial
  have ticking : ∀ d d' phs, Tidy cfg d phs → Ticks d d' → Answered cfg d d' → Tidy cfg d' phs := by
    rintro d d' phs tidy ⟨t, -, rfl⟩ -
    refine ⟨tidy.closed, tidy.nonempty, fun ph hph => ?_⟩
    exact fine_of_tame (tame_of_held rfl (fun _ _ ha => ha)) (tidy.phases ph hph)
  obtain ⟨phs, -, tidy⟩ := reachable_invariant (T := Move cfg) (Q := anyEnd) (Tidy cfg)
    (fun _ spawned => conforms_spawned spawned) init
    (fun _ _ _ _ _ _ tidy move answered => tidy_move placed tidy move answered) arrive ticking reach
  exact tidy.closed

/-! ## A checkout on two controllers -/

instance (cfg : Config) (d : Desk) : DecidablePred (Admits cfg d)
  | .created sam => inferInstanceAs (Decidable (∀ r ∈ d.rows, sqlEq r.aduser (some sam) = false))
  | .searched controller sam => inferInstanceAs (Decidable (∀ i < cfg.dcs, ∀ a ∈ d.held i,
      named sam a = true → ∃ b ∈ d.held controller, named sam b = true ∧ dnEq a.dn b.dn = true))
  | .refused => instDecidableFalse
  | .extended .. | .listed .. | .selected .. | .closed .. => instDecidableTrue

instance (cfg : Config) : DecidableRel (Answered cfg) := fun d d' =>
  inferInstanceAs (Decidable (∀ e ∈ d'.log.drop d.log.length, Admits cfg d e))

def twoControllers : Config := { sampleConfig with dcs := 2, dcs_pos := by decide }

/-- A sweep in which the second controller may refuse the delete. -/
def sweepAnswers (refuses : Bool) : SweepAnswers where
  select := false
  delete := fun _ => ⟨0, false, fun _ i => refuses && i == 1⟩
  update := fun _ => false

def checkedOut : Pool Desk Exn Unit :=
  [0, 0, 0].foldl Pool.turn ⟨emptyDesk, [checkOut twoControllers patsCheckout]⟩

/-- The checkout's hours are over and a sweep begins. -/
def overdue (refuses : Bool) : Pool Desk Exn Unit :=
  ⟨{ checkedOut.shared with clock := 36000000 },
    checkedOut.threads ++ [run twoControllers (sweepAnswers refuses) false]⟩

theorem reachable_overdue (refuses : Bool) :
    Reachable (Spawned twoControllers) Ticks (Answered twoControllers) emptyDesk
      (overdue refuses) := by
  have opened : Reachable (Spawned twoControllers) Ticks (Answered twoControllers) emptyDesk
      ⟨emptyDesk, [checkOut twoControllers patsCheckout]⟩ :=
    reachable_spawn .refl (.checkOut patsCheckout) (by decide +kernel)
  have answered : Pool.Along (Answered twoControllers)
      ⟨emptyDesk, [checkOut twoControllers patsCheckout]⟩ [0, 0, 0] := by decide +kernel
  have stored : Reachable (Spawned twoControllers) Ticks (Answered twoControllers) emptyDesk
      checkedOut := reachable_turns opened answered
  have later := reachable_env stored (t := { checkedOut.shared with clock := 36000000 })
    ⟨36000000, by decide +kernel, rfl⟩ (by decide +kernel)
  exact reachable_spawn later (.sweep (sweepAnswers refuses) false) (by decide +kernel)

/-- Both controllers delete, and the row is closed. -/
theorem answered_sweep_closes :
    let P := (List.replicate 6 1).foldl Pool.turn (overdue false)
    P.shared.rows.map CheckoutRow.status = [some "inactive"] ∧
    ClosedWhenGone twoControllers P.shared := by
  have answered : (overdue false).Along (Answered twoControllers) (List.replicate 6 1) := by
    decide +kernel
  have reach := reachable_turns (reachable_overdue false) answered
  exact ⟨by decide +kernel, closed_only_when_gone (by decide) rfl reach⟩

/-- The second controller refuses, and the row is closed all the same. -/
theorem refused_sweep_closes :
    ∃ P, Reachable (Spawned twoControllers) Ticks (fun _ _ => True) emptyDesk P ∧
      ¬ ClosedWhenGone twoControllers P.shared := by
  let schedule := List.replicate 6 1
  have reach := reachable_turns ((reachable_overdue true).weaken (fun _ _ _ => trivial))
    ((overdue true).along_true schedule)
  refine ⟨_, reach, fun gone => ?_⟩
  have live : ∃ r ∈ (schedule.foldl Pool.turn (overdue true)).shared.rows,
      sqlEq r.status (some "inactive") = true ∧
      ∃ a ∈ (schedule.foldl Pool.turn (overdue true)).shared.held 1,
        sqlEq r.aduser (some a.sam) = true := by
    decide +kernel
  obtain ⟨r, hr, inactive, a, ha, same⟩ := live
  have dead := gone r hr inactive 1 (by decide) a ha
  rw [same] at dead
  cases dead

end SweptAccounts
