import Proconsul.TwoRuns
import Proconsul.CheckoutEffects
import Proconsul.CheckoutDesk

/-!
# The application at the desk

`CheckoutDesk` takes the functions of `Checkout` apart into single statements and
gives every controller accounts of its own. Here each function is run alone beside
its counterpart: from a database and a directory that the desk has too they lead to
a database and a directory that the desk has again. Whatever requests and sweeps one
after another lead to is therefore reached at the desk.

The sweeps are those to which no controller refuses a deletion. The model with one
directory takes an account to be gone when one controller has deleted it.
-/

namespace DeskSimulation

open Program Interleaving TwoRuns Schema Text Surroundings Hosts Accounts Handlers
open CheckoutDesk (Entry Desk Act Spawned Ticks)

/-! ## One state and the other -/

/-- The desk has the table, and every controller has the accounts of the directory. -/
structure Mirrors (cfg : Config) (now : Int) (w : World) (d : Desk) : Prop where
  clock : d.clock = now
  rows : d.rows = w.db.checkout
  held : ∀ i < cfg.dcs, ∀ e : Entry, e ∈ d.held i ↔ (e.sam, e.dn) ∈ names w.ad

/-- The directory and the table agree on which accounts bear the name of a row. -/
def Agreed (rows : List CheckoutRow) (w : World) : Prop :=
  ∀ r ∈ rows, ∀ sam, r.aduser = some sam → ∀ p ∈ names w.ad,
    finds sam p.1 = sqlEq (some p.1) (some sam)

/-- While the rows are swept. -/
def Sweeping (cfg : Config) (now : Int) (rows : List CheckoutRow) (w : World) (d : Desk) : Prop :=
  Mirrors cfg now w d ∧ Agreed rows w

section States

variable {cfg : Config} {now : Int} {w w' : World} {d : Desk}

/-- What the desk does not have may change. -/
theorem Mirrors.of_same (m : Mirrors cfg now w d) (accounts : names w'.ad = names w.ad)
    (rows : w'.db.checkout = w.db.checkout) : Mirrors cfg now w' d where
  clock := m.clock
  rows := by rw [m.rows, rows]
  held := by rw [accounts]; exact m.held

theorem Mirrors.note (m : Mirrors cfg now w d) (e : CheckoutDesk.Event) :
    Mirrors cfg now w (CheckoutDesk.note e d) := ⟨m.clock, m.rows, m.held⟩

theorem run_audit_checkout (fails : Bool) (event : String)
    (authUser targetHost targetUser targetGroup clientIp : Option String) (w : World) :
    ∃ w', (audit fails event authUser targetHost targetUser targetGroup clientIp).run w =
      (.ok (), w') ∧ names w'.ad = names w.ad ∧ w'.db.checkout = w.db.checkout := by
  have kept := keeps_run (quiet_audit CheckoutEffects.quiet_checkout fails event authUser targetHost
    targetUser targetGroup clientIp) w
  obtain ⟨w', ran, same⟩ := run_audit fails event authUser targetHost targetUser targetGroup clientIp w
  rw [ran] at kept
  exact ⟨w', ran, same.names, kept⟩

end States

/-! ## Buttons and the list -/

section Statements

variable {cfg : Config} {now : Int}

/-- An update of the table and the audit row after it, beside the update alone. -/
theorem matching_button (fails audits : Bool) (event : String) {columns : List String}
    (known : Table.checkout.knows columns = true) {update : List CheckoutRow → List CheckoutRow}
    {act : Act Bool} (owner host sam ip : Option String)
    (counterpart : ∀ d : Desk, d.clock = now → ∃ d', d'.clock = now ∧ d'.held = d.held ∧
      d'.rows = (if fails then d.rows else update d.rows) ∧ act.run d = (.ok (!fails), d')) :
    Matching (Mirrors cfg now) Eq
      (Prog.orElse (do
        execute fails .checkout columns (fun db => ({ db with checkout := update db.checkout }, []))
        audit audits event owner host sam none ip
        return true) false)
      act := by
  intro w d m
  obtain ⟨d', clock, held, rows, ran⟩ := counterpart d m.clock
  rw [ran, Prog.run_orElse, Prog.run_bind, run_execute known]
  cases fails with
  | true => exact ⟨rfl, clock, rows.trans m.rows, held ▸ m.held⟩
  | false =>
    obtain ⟨w', audited, accounts, kept⟩ := run_audit_checkout audits event owner host sam none ip
      { w with db := { w.db with checkout := update w.db.checkout }, trace := w.trace ++ [] }
    have updated : Mirrors cfg now
        { w with db := { w.db with checkout := update w.db.checkout }, trace := w.trace ++ [] } d' :=
      ⟨clock, rows.trans (congrArg update m.rows), held ▸ m.held⟩
    simp only [Bool.false_eq_true, if_false]
    rw [Prog.run_bind_ok audited]
    exact ⟨rfl, updated.of_same accounts kept⟩

theorem matching_extend (c : Checkout.ButtonCalls) (co : Checkout.CheckedOutCred)
    (ip : Option String) (read : c.now = now) :
    Matching (Mirrors cfg now) Eq (Checkout.extendCheckedOutUser c co ip)
      (CheckoutDesk.extendCheckedOutUser c.write co.authUser.uid co.targetUser.sAMAccountName) := by
  refine matching_button c.write c.audit "extendCheckedOutCredLifetime" rfl co.authUser.uid
    co.targetHost co.targetUser.sAMAccountName ip (fun d clock => ?_)
  rw [read, ← clock]
  cases fails : c.write with
  | true => exact ⟨d, rfl, rfl, rfl, rfl⟩
  | false =>
    exact ⟨CheckoutDesk.extended d.clock co.authUser.uid co.targetUser.sAMAccountName d,
      rfl, rfl, rfl, rfl⟩

theorem matching_expire (c : Checkout.ButtonCalls) (co : Checkout.CheckedOutCred)
    (ip : Option String) (set : c.set = now) (read : c.now = now) :
    Matching (Mirrors cfg now) Eq (Checkout.expireCheckedOutUser c co ip)
      (CheckoutDesk.expireCheckedOutUser c.write co.authUser.uid co.targetUser.sAMAccountName) := by
  refine matching_button c.write c.audit "expireCheckedOutCred" rfl co.authUser.uid
    co.targetHost co.targetUser.sAMAccountName ip (fun d clock => ?_)
  rw [set, read, ← clock]
  cases fails : c.write with
  | true => exact ⟨d, rfl, rfl, rfl, rfl⟩
  | false =>
    exact ⟨CheckoutDesk.ended d.clock d.clock co.authUser.uid co.targetUser.sAMAccountName d,
      rfl, rfl, rfl, rfl⟩

/-- The page shows the rows that the desk lists. -/
theorem matching_list (fails : Bool) (localeString : Int → String) (au : AuthUser) :
    Matching (Mirrors cfg now) (fun creds rows => creds = rows.map (Checkout.listedCred localeString))
      (Checkout.getAvailableCheckedOutUsers fails localeString au now)
      (CheckoutDesk.getAvailableCheckedOutUsers fails au.uid) := by
  refine matching_orElse (fun w d m => ?_) rfl
  have clock : CheckoutDesk.currentTimeMillis.run d = (.ok now, d) := by
    rw [← m.clock]
    rfl
  rw [run_query rfl, Prog.run_bind_ok clock]
  cases fails with
  | true => exact ⟨rfl, m⟩
  | false =>
    refine ⟨?_, m.note _⟩
    simp only [CheckoutDesk.statement, Prog.run_atom, m.rows]
    rfl

end Statements

/-! ## Deletion -/

/-- Deleting an entry on some controllers of the application deletes it in the one directory. -/
theorem run_destroy (dn : String) (controllers : List Nat) (w : World) :
    ∃ w', (controllers.forM (fun _ => modify false (destroySubcontext dn))).run w = (.ok (), w') ∧
      w'.db = w.db ∧ ∀ p, p ∈ names w'.ad ↔
        p ∈ names w.ad ∧ (controllers ≠ [] → dnEq p.2 dn = false) := by
  induction controllers generalizing w with
  | nil => exact ⟨w, rfl, rfl, by simp⟩
  | cons i controllers ih =>
    obtain ⟨w', rest, db, left⟩ := ih
      { w with
        ad := { w.ad with accounts := deleteWhere (fun a => dnEq a.dn dn) w.ad.accounts }
        trace := w.trace ++ (w.ad.accounts.filter (fun a => dnEq a.dn dn)).map
          (fun a => .accountDeleted a.sam) }
    refine ⟨w', rest, db, fun p => ?_⟩
    rw [left]
    have first : p ∈ names { w.ad with accounts := deleteWhere (fun a => dnEq a.dn dn) w.ad.accounts } ↔
        p ∈ names w.ad ∧ dnEq p.2 dn = false := by
      simp only [names, List.mem_map, mem_deleteWhere]
      constructor
      · rintro ⟨a, ⟨ha, kept⟩, rfl⟩
        exact ⟨⟨a, ha, rfl⟩, kept⟩
      · rintro ⟨⟨a, ha, rfl⟩, kept⟩
        exact ⟨a, ⟨ha, kept⟩, rfl⟩
    rw [first]
    constructor
    · rintro ⟨⟨mem, kept⟩, -⟩
      exact ⟨mem, fun _ => kept⟩
    · rintro ⟨mem, kept⟩
      have gone := kept (List.cons_ne_nil i controllers)
      exact ⟨⟨mem, gone⟩, fun _ => gone⟩

theorem run_destroyAll (dns : List (String × Nat)) (controllers : List Nat) (w : World) :
    ∃ w', (dns.forM (fun d => controllers.forM (fun _ => modify false (destroySubcontext d.1)))).run w =
        (.ok (), w') ∧ w'.db = w.db ∧ ∀ p, p ∈ names w'.ad ↔
        p ∈ names w.ad ∧ (controllers ≠ [] → ∀ d ∈ dns, dnEq p.2 d.1 = false) := by
  induction dns generalizing w with
  | nil => exact ⟨w, rfl, rfl, by simp⟩
  | cons d dns ih =>
    obtain ⟨w₁, first, db₁, left₁⟩ := run_destroy d.1 controllers w
    obtain ⟨w₂, rest, db₂, left₂⟩ := ih w₁
    refine ⟨w₂, (Prog.run_bind_ok first).trans rest, db₂.trans db₁, fun p => ?_⟩
    rw [left₂, left₁]
    simp only [List.forall_mem_cons]
    tauto

/-- At the desk each controller deletes among its own. -/
theorem desk_destroy (dn : String) (controllers : List Nat) (d : Desk) :
    ∃ d', (controllers.forM (fun i => CheckoutDesk.destroySubcontext false i dn)).run d = (.ok (), d') ∧
      d'.rows = d.rows ∧ d'.clock = d.clock ∧ ∀ i e, e ∈ d'.held i ↔
        e ∈ d.held i ∧ (i ∈ controllers → dnEq e.dn dn = false) := by
  induction controllers generalizing d with
  | nil => exact ⟨d, rfl, rfl, rfl, by simp⟩
  | cons j controllers ih =>
    obtain ⟨d', rest, rows, clock, left⟩ := ih { d with held := CheckoutDesk.without j dn d.held }
    refine ⟨d', rest, rows, clock, fun i e => ?_⟩
    have first : e ∈ CheckoutDesk.without j dn d.held i ↔
        e ∈ d.held i ∧ (i = j → dnEq e.dn dn = false) := by
      rw [CheckoutDesk.without]
      split
      · rename_i same
        simp [List.mem_filter, same]
      · rename_i other
        simp [other]
    rw [left, first, List.mem_cons]
    tauto

theorem desk_destroyAll (dns : List (String × Nat)) (controllers : List Nat) (d : Desk) :
    ∃ d', (dns.forM (fun dn => controllers.forM (fun i =>
        CheckoutDesk.destroySubcontext false i dn.1))).run d = (.ok (), d') ∧
      d'.rows = d.rows ∧ d'.clock = d.clock ∧ ∀ i e, e ∈ d'.held i ↔
        e ∈ d.held i ∧ (i ∈ controllers → ∀ dn ∈ dns, dnEq e.dn dn.1 = false) := by
  induction dns generalizing d with
  | nil => exact ⟨d, rfl, rfl, rfl, by simp⟩
  | cons dn dns ih =>
    obtain ⟨d₁, first, rows₁, clock₁, left₁⟩ := desk_destroy dn.1 controllers d
    obtain ⟨d₂, rest, rows₂, clock₂, left₂⟩ := ih d₁
    refine ⟨d₂, (Prog.run_bind_ok first).trans rest, rows₂.trans rows₁, clock₂.trans clock₁,
      fun i e => ?_⟩
    rw [left₂, left₁]
    simp only [List.forall_mem_cons]
    tauto

/-! ## The sweep -/

section Sweep

variable {cfg : Config} {now : Int} {rows : List CheckoutRow} {w w' : World} {d d' : Desk}

theorem mem_accountDns {ad : Directory} {sam dn : String} :
    dn ∈ accountDns ad (some sam) ↔ ∃ p ∈ names ad, finds sam p.1 = true ∧ p.2 = dn := by
  simp only [accountDns, javaString, names, List.mem_map, mem_found]
  constructor
  · rintro ⟨a, ⟨ha, found⟩, rfl⟩
    exact ⟨_, ⟨a, ha, rfl⟩, found, rfl⟩
  · rintro ⟨_, ⟨a, ha, rfl⟩, found, rfl⟩
    exact ⟨a, ⟨ha, found⟩, rfl⟩

/-- The directory and the first controller answer a search with the same entries. -/
theorem found_iff (swept : Sweeping cfg now rows w d) {r : CheckoutRow} (hr : r ∈ rows) {sam : String}
    (name : r.aduser = some sam) (there : 0 < cfg.dcs) {dn : String} :
    dn ∈ accountDns w.ad (some sam) ↔
      dn ∈ ((d.held 0).filter (CheckoutDesk.named sam)).map Entry.dn := by
  obtain ⟨mirrors, agreed⟩ := swept
  rw [mem_accountDns, List.mem_map]
  constructor
  · rintro ⟨p, hp, found, rfl⟩
    rw [agreed r hr sam name p hp] at found
    exact ⟨⟨p.1, p.2⟩, List.mem_filter.mpr ⟨(mirrors.held 0 there _).mpr hp, found⟩, rfl⟩
  · rintro ⟨e, he, rfl⟩
    obtain ⟨here, found⟩ := List.mem_filter.mp he
    have known := (mirrors.held 0 there e).mp here
    exact ⟨_, known, (agreed r hr sam name _ known).trans found, rfl⟩

theorem forall_zipIdx {α : Type} {P : α → Prop} {xs : List α} :
    (∀ x ∈ xs.zipIdx, P x.1) ↔ ∀ x ∈ xs, P x := by
  constructor
  · intro all x hx
    obtain ⟨i, hi, rfl⟩ := List.getElem_of_mem hx
    exact all (xs[i], i) (List.mem_zipIdx_iff_getElem?.mpr (List.getElem?_eq_getElem hi))
  · intro all x hx
    exact all x.1 (List.fst_mem_of_mem_zipIdx hx)

/-- What is left when both have deleted what they found. -/
theorem Sweeping.deleted (swept : Sweeping cfg now rows w d) {r : CheckoutRow} (hr : r ∈ rows)
    {sam : String} (name : r.aduser = some sam) (clock : d'.clock = d.clock) (same : d'.rows = d.rows)
    (table : w'.db.checkout = w.db.checkout)
    (left : ∀ p, p ∈ names w'.ad ↔ p ∈ names w.ad ∧ (List.range cfg.dcs ≠ [] →
      ∀ dn ∈ (accountDns w.ad (some sam)).zipIdx, dnEq p.2 dn.1 = false))
    (held : ∀ i e, e ∈ d'.held i ↔ e ∈ d.held i ∧ (i ∈ List.range cfg.dcs →
      ∀ dn ∈ (((d.held 0).filter (CheckoutDesk.named sam)).map Entry.dn).zipIdx,
        dnEq e.dn dn.1 = false)) :
    Sweeping cfg now rows w' d' := by
  refine ⟨⟨clock.trans swept.1.clock, ?_, fun i hi e => ?_⟩, fun r' hr' sam' name' p hp => ?_⟩
  · rw [same, table, swept.1.rows]
  · have there : 0 < cfg.dcs := by omega
    have controllers : List.range cfg.dcs ≠ [] := by simp [there.ne']
    have searched : (∀ dn ∈ (accountDns w.ad (some sam)).zipIdx, dnEq e.dn dn.1 = false) ↔
        ∀ dn ∈ (((d.held 0).filter (CheckoutDesk.named sam)).map Entry.dn).zipIdx,
          dnEq e.dn dn.1 = false := by
      rw [forall_zipIdx (P := fun dn => dnEq e.dn dn = false),
        forall_zipIdx (P := fun dn => dnEq e.dn dn = false)]
      simp only [found_iff swept hr name there]
    rw [held, left, swept.1.held i hi, searched]
    simp only [List.mem_range.mpr hi, forall_const, controllers, ne_eq, not_false_eq_true]
  · exact swept.2 r' hr' sam' name' p ((left p).mp hp).1

theorem matching_deleteAdUser {c : DeleteCalls} (answered : ∀ k i, c.controller k i = false)
    {r : CheckoutRow} (hr : r ∈ rows) {u : ADUser} (name : u.sAMAccountName = r.aduser)
    (domain : u.adDomain = some cfg.domain) (au : Option AuthUser) (ip : Option String) :
    Matching (Sweeping cfg now rows) (fun _ _ => True) (deleteAdUser cfg c u au ip)
      (CheckoutDesk.deleteAdUser cfg ⟨0, c.find, fun _ _ => false⟩ r.aduser) := by
  rw [deleteAdUser, CheckoutDesk.deleteAdUser, name, domain]
  cases hsam : given r.aduser with
  | none => exact matching_pure trivial
  | some sam =>
    cases given (some cfg.domain) with
    | none => exact matching_pure trivial
    | some _ =>
      have named : r.aduser = some sam := (Option.filter_eq_some_iff.mp hsam).1
      refine matching_orElse (Q := fun _ _ => True) (fun w d swept => ?_) trivial
      dsimp only
      cases find : c.find with
      | true => exact ⟨rfl, swept.1.note _, swept.2⟩
      | false =>
        simp only [answered]
        obtain ⟨w₁, deleted, db, left⟩ := run_destroyAll (accountDns w.ad (some sam)).zipIdx
          (List.range cfg.dcs) w
        obtain ⟨w₂, audited, accounts, table⟩ := run_audit_checkout c.audit
          ("Deleted ad user " ++ sam) (au.bind AuthUser.uid) none (some sam) none ip w₁
        obtain ⟨d', atDesk, same, clock, held⟩ := desk_destroyAll
          (((d.held 0).filter (CheckoutDesk.named sam)).map Entry.dn).zipIdx (List.range cfg.dcs)
          (CheckoutDesk.note (.searched 0 sam) d)
        have searched : (search false (fun ad => accountDns ad (some sam))).run w =
            (.ok (accountDns w.ad (some sam)), w) := rfl
        have looked : (CheckoutDesk.search ⟨0, false, fun _ _ => false⟩ sam).run d =
            (.ok (((d.held 0).filter (CheckoutDesk.named sam)).map Entry.dn),
              CheckoutDesk.note (.searched 0 sam) d) := rfl
        rw [Prog.run_bind_ok searched, Prog.run_bind_ok deleted, Prog.run_bind_ok audited,
          Prog.run_bind_ok looked, atDesk]
        refine ⟨trivial, swept.deleted hr named clock same (table.trans (by rw [db])) ?_ held⟩
        intro p
        rw [Prog.run_pure, accounts]
        exact left p

theorem run_removeAuthorizedDA (c : AdminCalls) (u : ADUser) (au : Option AuthUser)
    (ip : Option String) (w : World) :
    ∃ b w', (removeAuthorizedDA c u au ip).run w = (.ok b, w') ∧ names w'.ad = names w.ad ∧
      w'.db.checkout = w.db.checkout := by
  rw [removeAuthorizedDA, Prog.run_orElse, Prog.run_bind, run_execute rfl]
  cases c.write with
  | true => exact ⟨false, w, rfl, rfl, rfl⟩
  | false =>
    simp only [Bool.false_eq_true, if_false]
    obtain ⟨w', audited, accounts, table⟩ := run_audit_checkout c.audit "removeActiveDA"
      (au.bind AuthUser.uid) none u.sAMAccountName none ip _
    rw [Prog.run_bind_ok audited]
    exact ⟨true, w', rfl, accounts, table⟩

/-- The desk does not keep Domain Admin rows. -/
theorem matching_sweepRow {c : Checkout.SweepCalls} {c' : CheckoutDesk.SweepAnswers}
    {r : CheckoutRow} {k pos : Nat} (answered : ∀ n i, (c.delete k).controller n i = false)
    (hr : r ∈ rows) (deletes : c'.delete pos = ⟨0, (c.delete k).find, fun _ _ => false⟩)
    (updates : c'.update pos = c.update k) :
    Matching (Sweeping cfg now rows) (fun _ _ => True) (Checkout.sweepRow "owner" cfg c (r, k))
      (CheckoutDesk.sweepRow cfg c' (r, pos)) := by
  rw [Checkout.sweepRow, CheckoutDesk.sweepRow, deletes, updates]
  refine matching_skip (fun w d swept => ⟨r.owner, w, rfl, swept⟩) (fun owner => ?_)
  refine matching_bind (matching_deleteAdUser answered hr rfl rfl _ _) (fun _ _ _ => ?_)
  refine matching_trail (Q := fun _ _ => True) (fun w d swept => ?_) (fun _ _ w d _ swept => ?_)
  · rw [run_execute rfl]
    cases fails : c.update k with
    | true => exact ⟨rfl, swept⟩
    | false =>
      refine ⟨trivial, ⟨swept.1.clock, ?_, swept.1.held⟩, swept.2⟩
      exact congrArg (updateWhere (fun x => sqlEq x.aduser r.aduser) CheckoutDesk.close) swept.1.rows
  · obtain ⟨b, w', ran, accounts, table⟩ := run_removeAuthorizedDA (c.admins k)
      { sAMAccountName := r.aduser, adPassword := none, adDomain := some cfg.domain,
        adOu := some cfg.targetbase, memberships := [], created := false }
      (some ⟨owner, [], []⟩) none w
    refine ⟨(), w', Prog.run_bind_ok ran, trivial, swept.1.of_same accounts table, ?_⟩
    intro r' hr' sam name p hp
    rw [accounts] at hp
    exact swept.2 r' hr' sam name p hp

/-- A selection is numbered from the front, or by the positions in the table. -/
theorem zipIdx_filter {α : Type} (p : α → Bool) (xs : List α) (k n : Nat) :
    ∃ f : Nat → Nat, (xs.filter p).zipIdx n =
      ((xs.zipIdx k).filter (fun x => p x.1)).map (fun x => (x.1, f x.2)) := by
  induction xs generalizing k n with
  | nil => exact ⟨id, rfl⟩
  | cons x xs ih =>
    obtain ⟨f, rest⟩ := ih (k + 1) (if p x then n + 1 else n)
    have later : ((xs.zipIdx (k + 1)).filter (fun x => p x.1)).map (fun x => (x.1, f x.2)) =
        ((xs.zipIdx (k + 1)).filter (fun x => p x.1)).map
          (fun x => (x.1, if x.2 = k then n else f x.2)) := by
      refine List.map_congr_left (fun y hy => ?_)
      have after : k + 1 ≤ y.2 := List.le_snd_of_mem_zipIdx (List.mem_filter.mp hy).1
      rw [if_neg (by omega)]
    refine ⟨fun i => if i = k then n else f i, ?_⟩
    cases chosen : p x with
    | true =>
      rw [if_pos chosen] at rest
      rw [List.filter_cons_of_pos chosen, List.zipIdx_cons, List.zipIdx_cons,
        List.filter_cons_of_pos (by exact chosen), List.map_cons, rest, later]
      simp
    | false =>
      have passed : ¬ p x = true := by rw [chosen]; exact Bool.false_ne_true
      rw [if_neg passed] at rest
      rw [List.filter_cons_of_neg passed, List.zipIdx_cons,
        List.filter_cons_of_neg (by exact passed), rest, later]

theorem sweep_mirrored {c : Checkout.SweepCalls}
    (answered : ∀ k n i, (c.delete k).controller n i = false)
    (active : Bool) (m : Mirrors cfg now w d) (agreed : Agreed w.db.checkout w) :
    ∃ c', Mirrors cfg now ((Checkout.runReading "owner" cfg c active now).run w).2
      ((CheckoutDesk.run cfg c' active).run d).2 := by
  obtain ⟨f, numbered⟩ := zipIdx_filter (Checkout.expired now) w.db.checkout 0 0
  refine ⟨⟨c.select, fun pos => ⟨0, (c.delete (f pos)).find, fun _ _ => false⟩,
    fun pos => c.update (f pos)⟩, ?_⟩
  rw [Checkout.runReading, CheckoutDesk.run]
  cases active with
  | true => exact m
  | false =>
    rw [if_neg Bool.false_ne_true, if_neg Bool.false_ne_true, Prog.run_orElse_state,
      Prog.run_orElse_state, Prog.run_bind, run_query rfl]
    have clock : CheckoutDesk.currentTimeMillis.run d = (.ok now, d) := by
      rw [← m.clock]
      rfl
    rw [Prog.run_bind_ok clock]
    cases c.select with
    | true => exact m
    | false =>
      have selected : (CheckoutDesk.statement false (fun d => (CheckoutDesk.picked now d.rows,
          CheckoutDesk.note (.selected now ((CheckoutDesk.picked now d.rows).map Prod.snd)) d))).run d =
          (.ok (CheckoutDesk.picked now w.db.checkout),
            CheckoutDesk.note (.selected now ((CheckoutDesk.picked now d.rows).map Prod.snd)) d) := by
        rw [← m.rows]
        rfl
      rw [Prog.run_bind_ok selected]
      simp only [Bool.false_eq_true, if_false]
      rw [numbered]
      have swept : Sweeping cfg now w.db.checkout w
          (CheckoutDesk.note (.selected now ((CheckoutDesk.picked now d.rows).map Prod.snd)) d) :=
        ⟨m.note _, agreed⟩
      have loop : Matching (Sweeping cfg now w.db.checkout) (fun _ _ => True)
          (((CheckoutDesk.picked now w.db.checkout).map (fun x => (x.1, f x.2))).forM
            (Checkout.sweepRow "owner" cfg c))
          ((CheckoutDesk.picked now w.db.checkout).forM (CheckoutDesk.sweepRow cfg ⟨false,
            fun pos => ⟨0, (c.delete (f pos)).find, fun _ _ => false⟩,
            fun pos => c.update (f pos)⟩)) := by
        refine matching_forM (fun x hx => ?_)
        have there : x.1 ∈ w.db.checkout := List.fst_mem_of_mem_zipIdx (List.mem_filter.mp hx).1
        exact matching_sweepRow (answered (f x.2)) there rfl rfl
      exact (loop _ _ swept).2.1

end Sweep

/-! ## Checkouts -/

theorem returns_getRandomSamaccountname (c : CreateCalls) :
    (getRandomSamaccountname c).Returns (fun name => ∃ i, name = c.names i) := by
  have names : ∀ tries i, (nextName c tries i).Returns (fun name => ∃ i, name = c.names i) := by
    intro tries
    induction tries with
    | zero => exact fun i => trivial
    | succ tries ih =>
      intro i
      refine Prog.returns_bind (Prog.returns_any _) (fun free _ => ?_)
      cases free with
      | false => exact ih (i + 1)
      | true => exact Prog.returns_pure ⟨i, rfl⟩
  exact names 10 0

theorem run_checkOut (cfg : Config) (a : CheckoutDesk.CheckOutAnswers) (d : Desk) :
    ((CheckoutDesk.checkOut cfg a).run d).2 =
      { CheckoutDesk.created cfg a d with
        rows := if a.store then d.rows else d.rows ++ [CheckoutDesk.checkoutRow a d.clock] } := by
  cases store : a.store <;>
    simp [CheckoutDesk.checkOut, CheckoutDesk.currentTimeMillis, CheckoutDesk.statement,
      CheckoutDesk.created, CheckoutDesk.note, Prog.run_bind, Prog.run_orElse, store]

section Checkouts

variable {cfg : Config} {now : Int} {w : World} {d : Desk}

/-- A request that is refused, or gets no account, is no checkout at all. Else the desk is told
whether a controller took the account and whether the row was stored. -/
theorem checkOut_mirrored {c : Checkout.CheckoutCalls} (req : Request)
    (form : Checkout.CheckedOutCredRequest)
    (drawn : ∀ i, ∃ stem, c.create.names i = CheckoutDesk.accountName stem) (read : c.now = now)
    (m : Mirrors cfg now w d) :
    ∃ a, (a = pure () ∨ Spawned cfg a) ∧
      Mirrors cfg now ((Checkout.handleCheckOutPost cfg c req form).run w).2 (a.run d).2 := by
  rcases CheckoutEffects.handleCheckOutPost_cases cfg c req form w with ⟨⟨tokens, same⟩, -⟩ |
      ⟨w₁, sam, -, -, w₂, -, ⟨tokens, rfl⟩, creates, -, -, ends⟩
  · rw [same]
    exact ⟨pure (), .inl rfl, m.of_same rfl rfl⟩
  · rcases run_createRandomizedADUser cfg c.create none
        { w with db := { w.db with csrfTokens := tokens } } with
      none | ⟨sam', k, w', draws, runs, created, -⟩
    · rw [none] at creates
      cases creates
    · obtain ⟨value, rfl⟩ := Prod.mk.inj (runs.symm.trans creates)
      obtain rfl : sam' = sam := by
        simpa [randomizedUser] using value
      have kept := keeps_run (quiet_createRandomizedADUser CheckoutEffects.quiet_checkout cfg c.create
        none) { w with db := { w.db with csrfTokens := tokens } }
      rw [runs] at kept
      obtain ⟨i, rfl⟩ := (returns_getRandomSamaccountname c.create).run
        (congrArg Prod.fst draws)
      obtain ⟨stem, name⟩ := drawn i
      obtain ⟨r, w₃, registers, accounts, -, table⟩ := CheckoutEffects.run_registerCheckout cfg c req
        form (randomizedUser cfg c.create (c.create.names i)) w'
      rw [ends, registers]
      let a : CheckoutDesk.CheckOutAnswers :=
        ⟨stem, fun _ => decide (k ≠ 0), !(form.targetHost.isSome && !c.store), req.authUser.uid,
          form.lifetime, form.targetHost, some (keepOnly displayChar (form.reason.getD ""))⟩
      refine ⟨CheckoutDesk.checkOut cfg a, .inr (.checkOut a), ?_⟩
      rw [run_checkOut]
      have row : Checkout.checkoutRow c req form (randomizedUser cfg c.create (c.create.names i)) =
          CheckoutDesk.checkoutRow a d.clock := by
        rw [Checkout.checkoutRow, Checkout.expiration, read, ← m.clock, randomizedUser, name]
        rfl
      refine ⟨m.clock, ?_, fun j hj e => ?_⟩
      · rw [table, kept, row, ← m.rows]
        cases stored : form.targetHost.isSome && !c.store <;> simp [a, stored]
      · rw [accounts, created.names, List.mem_append]
        have before := m.held j hj e
        change (e ∈ if decide (k ≠ 0) then d.held j ++ [CheckoutDesk.newEntry cfg _] else d.held j) ↔ _
        by_cases made : k = 0
        · simp only [made, ne_eq, not_true_eq_false, decide_false, Bool.false_eq_true, if_false,
            List.replicate_zero, List.not_mem_nil, or_false]
          exact before
        · have new : e = CheckoutDesk.newEntry cfg (CheckoutDesk.accountName stem) ↔
              (e.sam, e.dn) = (c.create.names i, accountDn cfg (c.create.names i)) := by
            rw [name]
            cases e
            simp [CheckoutDesk.newEntry, accountDn]
          rw [if_pos (by simpa using made), List.mem_append, List.mem_singleton, before, new,
            List.mem_replicate]
          simp only [ne_eq, made, not_false_eq_true, true_and]

end Checkouts

/-! ## Whole runs -/

/-- What is done to the checkouts at a time, run alone. -/
inductive Turn (cfg : Config) (now : Int) (w : World) : World → Prop where
  | checkOut (c : Checkout.CheckoutCalls) (req : Request) (form : Checkout.CheckedOutCredRequest)
      (drawn : ∀ i, ∃ stem, c.create.names i = CheckoutDesk.accountName stem) (read : c.now = now) :
      Turn cfg now w ((Checkout.handleCheckOutPost cfg c req form).run w).2
  | extend (c : Checkout.ButtonCalls) (co : Checkout.CheckedOutCred) (ip : Option String)
      (read : c.now = now) : Turn cfg now w ((Checkout.extendCheckedOutUser c co ip).run w).2
  | expire (c : Checkout.ButtonCalls) (co : Checkout.CheckedOutCred) (ip : Option String)
      (set : c.set = now) (read : c.now = now) :
      Turn cfg now w ((Checkout.expireCheckedOutUser c co ip).run w).2
  | list (fails : Bool) (localeString : Int → String) (au : AuthUser) :
      Turn cfg now w ((Checkout.getAvailableCheckedOutUsers fails localeString au now).run w).2
  | sweep (c : Checkout.SweepCalls) (active : Bool)
      (answered : ∀ k n i, (c.delete k).controller n i = false) (agreed : Agreed w.db.checkout w) :
      Turn cfg now w ((Checkout.runReading "owner" cfg c active now).run w).2

theorem run_discard {α : Type} (p : Act α) (d : Desk) :
    ((do let _ ← p : Act Unit).run d).2 = (p.run d).2 := by
  rw [Prog.run_bind]
  rcases p.run d with ⟨e | a, t⟩ <;> rfl

/-- Each is mirrored by something that may start at the desk, or by nothing. -/
theorem turn_mirrored {cfg : Config} {now : Int} {w w' : World} {d : Desk} (turn : Turn cfg now w w')
    (m : Mirrors cfg now w d) :
    ∃ a, (a = pure () ∨ Spawned cfg a) ∧ Mirrors cfg now w' (a.run d).2 := by
  cases turn with
  | checkOut c req form drawn read => exact checkOut_mirrored req form drawn read m
  | extend c co ip read =>
    refine ⟨_, .inr (.extend c.write co.authUser.uid co.targetUser.sAMAccountName), ?_⟩
    rw [run_discard]
    exact (matching_extend c co ip read w d m).2
  | expire c co ip set read =>
    refine ⟨_, .inr (.expire c.write co.authUser.uid co.targetUser.sAMAccountName), ?_⟩
    rw [run_discard]
    exact (matching_expire c co ip set read w d m).2
  | list fails localeString au =>
    refine ⟨_, .inr (.list fails au.uid), ?_⟩
    rw [run_discard]
    exact (matching_list fails localeString au w d m).2
  | sweep c active answered agreed =>
    obtain ⟨c', mirrored⟩ := sweep_mirrored answered active m agreed
    exact ⟨_, .inr (.sweep c' active), mirrored⟩

/-- Whatever checkouts, buttons, lists and sweeps one after another lead to is reached at the desk. -/
theorem turns_mirrored {cfg : Config} {start w : World} {d : Desk} {since now : Int}
    (m : Mirrors cfg since start d)
    (turns : Relation.ReflTransGen (fun x y : Int × World => x.1 ≤ y.1 ∧ Turn cfg y.1 x.2 y.2)
      (since, start) (now, w)) :
    ∃ P, Reachable (Spawned cfg) Ticks (fun _ _ => True) d P ∧ Mirrors cfg now w P.shared := by
  generalize ends : (now, w) = last at turns
  induction turns generalizing now w with
  | refl =>
    cases ends
    exact ⟨_, .refl, m⟩
  | tail _ turn ih =>
    subst ends
    obtain ⟨P, reach, mirrors⟩ := ih rfl
    obtain ⟨later, turn⟩ := turn
    have waited := reachable_env reach (t := { P.shared with clock := now })
      ⟨now, mirrors.clock.trans_le later, rfl⟩ trivial
    have moved : Mirrors cfg now _ { P.shared with clock := now } := ⟨rfl, mirrors.rows, mirrors.held⟩
    obtain ⟨a, rfl | allowed, mirrored⟩ := turn_mirrored turn moved
    · exact ⟨_, waited, mirrored⟩
    · exact ⟨_, reachable_alone waited allowed, mirrored⟩

end DeskSimulation
