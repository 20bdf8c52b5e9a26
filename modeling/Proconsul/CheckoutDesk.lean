import Proconsul.Checkout
import Proconsul.Interleaving

/-!
# Checkouts, the sweep and the domain controllers

The statements of `Checkout` once more, one by one and beside each other: the
clock is read in a step of its own before the statement that compares with it,
and every domain controller has accounts of its own. Groups, workstations,
Domain Admin rows and the audit log are left out; none of them decides what
happens to a row of `checkout` or to an account. The owner of a row is taken to
be read without an exception. `DeskSimulation` relates the two models.

`log` records what the statements were given. It is not part of the program's
state and no statement reads it.
-/

namespace CheckoutDesk

open Program Schema Text Surroundings Hosts Interleaving
open Checkout (pressed alive expired extendRow clampHours)

/-! ## State -/

/-- An account as one controller has it. -/
structure Entry where
  sam : String
  dn : String
  deriving DecidableEq, Repr

/-- `rows` are positions in the table. -/
inductive Event where
  | created (sam : String)
  | extended (now : Int) (owner aduser : Option String)
  | listed (now : Int) (owner : Option String) (rows : List Nat)
  | selected (t : Int) (rows : List Nat)
  | searched (controller : Nat) (sam : String)
  | refused
  | closed (rows : List Nat)
  deriving DecidableEq, Repr

structure Desk where
  rows : List CheckoutRow
  held : Nat → List Entry
  clock : Int
  log : List Event

abbrev Act (α : Type) : Type := Prog Desk Exn α

def note (e : Event) (d : Desk) : Desk := { d with log := d.log ++ [e] }

def positions (sel : CheckoutRow → Bool) (rows : List CheckoutRow) : List Nat :=
  (rows.zipIdx.filter (fun r => sel r.1)).map Prod.snd

/-- Account names, as the directory matches them in a search. -/
def named (sam : String) (a : Entry) : Bool := sqlEq (some a.sam) (some sam)

/-! ## Statements -/

/-- `System.currentTimeMillis()`. -/
def currentTimeMillis : Act Int := Prog.atom (fun d => (.ok d.clock, d))

def statement {α : Type} (fails : Bool) (f : Desk → α × Desk) : Act α :=
  Prog.atom (fun d => if fails then (.error .sqlException, d) else (.ok (f d).1, (f d).2))

def extended (now : Int) (owner aduser : Option String) (d : Desk) : Desk :=
  note (.extended now owner aduser)
    { d with rows := updateWhere (pressed owner aduser now) extendRow d.rows }

def extendCheckedOutUser (fails : Bool) (owner aduser : Option String) : Act Bool :=
  Prog.orElse (do
    let now ← currentTimeMillis
    statement fails (fun d => ((), extended now owner aduser d))
    return true) false

def ended (set now : Int) (owner aduser : Option String) (d : Desk) : Desk :=
  let atOnce (r : CheckoutRow) : CheckoutRow := { r with expiretime := some set }
  { d with rows := updateWhere (pressed owner aduser now) atOnce d.rows }

def expireCheckedOutUser (fails : Bool) (owner aduser : Option String) : Act Bool :=
  Prog.orElse (do
    let set ← currentTimeMillis
    let now ← currentTimeMillis
    statement fails (fun d => ((), ended set now owner aduser d))
    return true) false

/-- `upper(owner) = upper(?) and expiretime >= ?`. -/
def offered (uid : Option String) (now : Int) (r : CheckoutRow) : Bool :=
  sqlEq r.owner uid && alive now r

def getAvailableCheckedOutUsers (fails : Bool) (uid : Option String) : Act (List CheckoutRow) :=
  Prog.orElse (do
    let now ← currentTimeMillis
    statement fails (fun d => (d.rows.filter (offered uid now),
      note (.listed now uid (positions (offered uid now) d.rows)) d))) []

/-! ## Accounts -/

/-- What the controllers answer to one `deleteAdUser`. The search goes to the controller behind
the administrative connection, `destroy k i` is the delete of the `k`-th DN on controller `i`. -/
structure DeleteAnswers where
  controller : Nat
  find : Bool
  destroy : Nat → Nat → Bool

def search (c : DeleteAnswers) (sam : String) : Act (List String) :=
  Prog.atom (fun d =>
    if c.find then (.error .namingException, note .refused d)
    else (.ok (((d.held c.controller).filter (named sam)).map Entry.dn),
      note (.searched c.controller sam) d))

def without (i : Nat) (dn : String) (held : Nat → List Entry) : Nat → List Entry :=
  fun j => if j = i then (held j).filter (fun a => !dnEq a.dn dn) else held j

def destroySubcontext (fails : Bool) (i : Nat) (dn : String) : Act Unit :=
  Prog.atom (fun d =>
    if fails then (.error .namingException, note .refused d)
    else (.ok (), { d with held := without i dn d.held }))

/-- Any exception is swallowed and what has been deleted stays deleted. -/
def deleteAdUser (cfg : Config) (c : DeleteAnswers) (aduser : Option String) : Act Unit :=
  match given aduser, given (some cfg.domain) with
  | some sam, some _ =>
    Prog.orElse (do
      let dns ← search c sam
      dns.zipIdx.forM (fun dn => (List.range cfg.dcs).forM (fun i =>
        destroySubcontext (c.destroy dn.2 i) i dn.1))) ()
  | _, _ => pure ()

/-- Outcomes of a checkout. `stem` is the random part of the name, and `spread` tells which
controllers have the account when creation and propagation are over. -/
structure CheckOutAnswers where
  stem : String
  spread : Nat → Bool
  store : Bool
  owner : Option String
  lifetime : Int
  targetHost : Option String
  reason : Option String

def accountName (stem : String) : String := stem ++ "-eas"

def newEntry (cfg : Config) (sam : String) : Entry := ⟨sam, "cn=" ++ sam ++ "," ++ cfg.targetbase⟩

def adding (a : Entry) (spread : Nat → Bool) (held : Nat → List Entry) : Nat → List Entry :=
  fun i => if spread i then held i ++ [a] else held i

def created (cfg : Config) (c : CheckOutAnswers) (d : Desk) : Desk :=
  note (.created (accountName c.stem))
    { d with held := adding (newEntry cfg (accountName c.stem)) c.spread d.held }

def checkoutRow (c : CheckOutAnswers) (now : Int) : CheckoutRow where
  owner := c.owner
  starttime := some now
  expiretime := some (now + clampHours c.lifetime * 3600000)
  targethost := c.targetHost
  reason := c.reason
  aduser := some (accountName c.stem)
  status := some "active"

def checkOut (cfg : Config) (c : CheckOutAnswers) : Act Unit := do
  Prog.atom (fun d => (.ok (), created cfg c d))
  let now ← currentTimeMillis
  Prog.orElse (statement c.store (fun d => ((), { d with rows := d.rows ++ [checkoutRow c now] }))) ()

/-! ## The sweep -/

/-- Outcomes of a sweep, for each row by its position. -/
structure SweepAnswers where
  select : Bool
  delete : Nat → DeleteAnswers
  update : Nat → Bool

def close (r : CheckoutRow) : CheckoutRow := { r with status := some "inactive" }

def closed (aduser : Option String) (d : Desk) : Desk :=
  note (.closed (positions (fun x => sqlEq x.aduser aduser) d.rows))
    { d with rows := updateWhere (fun x => sqlEq x.aduser aduser) close d.rows }

/-- The row is closed whatever became of its account. -/
def sweepRow (cfg : Config) (c : SweepAnswers) (r : CheckoutRow × Nat) : Act Unit := do
  deleteAdUser cfg (c.delete r.2) r.1.aduser
  statement (c.update r.2) (fun d => ((), closed r.1.aduser d))

def picked (t : Int) (rows : List CheckoutRow) : List (CheckoutRow × Nat) :=
  rows.zipIdx.filter (fun r => expired t r.1)

def run (cfg : Config) (c : SweepAnswers) (active : Bool) : Act Unit :=
  if active then pure ()
  else Prog.orElse (do
    let t ← currentTimeMillis
    let rows ← statement c.select (fun d =>
      (picked t d.rows, note (.selected t ((picked t d.rows).map Prod.snd)) d))
    rows.forM (sweepRow cfg c)) ()

/-! ## Interleaved runs -/

/-- What may start at any time. -/
inductive Spawned (cfg : Config) : Act Unit → Prop where
  | checkOut (c : CheckOutAnswers) : Spawned cfg (checkOut cfg c)
  | extend (fails : Bool) (owner aduser : Option String) :
      Spawned cfg (do let _ ← extendCheckedOutUser fails owner aduser)
  | expire (fails : Bool) (owner aduser : Option String) :
      Spawned cfg (do let _ ← expireCheckedOutUser fails owner aduser)
  | list (fails : Bool) (uid : Option String) :
      Spawned cfg (do let _ ← getAvailableCheckedOutUsers fails uid)
  | sweep (c : SweepAnswers) (active : Bool) : Spawned cfg (run cfg c active)

/-- The clock never goes back. -/
def Ticks (d d' : Desk) : Prop := ∃ t, d.clock ≤ t ∧ d' = { d with clock := t }

/-! ## A first checkout -/

def emptyDesk : Desk := ⟨[], fun _ => [], 0, []⟩

def patsCheckout : CheckOutAnswers where
  stem := "ab3de6fgh"
  spread := fun _ => true
  store := false
  owner := some "pat@example.edu"
  lifetime := 4
  targetHost := none
  reason := none

/-! ## The protocol of the statements -/

/-- How far a program is. A sweep carries its clock value and the rows it has selected; while it
deletes an account, the pairs of controller and DN still to do. `spoiled` is a sweep in which a
controller has refused a call. -/
inductive Phase where
  | idle
  | timed (now : Int)
  | twice (set now : Int)
  | sweeping (t : Int) (rows : List (CheckoutRow × Nat))
  | deleting (t : Int) (rows : List (CheckoutRow × Nat)) (sam : String) (todo : List (Nat × String))
  | spoiled (t : Int) (rows : List (CheckoutRow × Nat))

/-- DNs found for a name on one controller, each to be deleted on every controller. -/
def toDelete (cfg : Config) (dns : List String) : List (Nat × String) :=
  dns.flatMap (fun dn => (List.range cfg.dcs).map (fun i => (i, dn)))

/-- In which phase a sweep may close the rows of an account. -/
inductive MayClose (cfg : Config) (aduser : Option String) (t : Int)
    (rows : List (CheckoutRow × Nat)) : Phase → Prop where
  | deleted {sam : String} (name : aduser = some sam) :
      MayClose cfg aduser t rows (.deleting t rows sam [])
  | skipped (h : given aduser = none ∨ cfg.domain = "") :
      MayClose cfg aduser t rows (.sweeping t rows)
  | refused : MayClose cfg aduser t rows (.spoiled t rows)

inductive Move (cfg : Config) : Phase → Desk → Desk → Phase → Prop where
  | rest (ph : Phase) (d : Desk) : Move cfg ph d d .idle
  | clock (d : Desk) : Move cfg .idle d d (.timed d.clock)
  | clockAgain (set : Int) (d : Desk) : Move cfg (.timed set) d d (.twice set d.clock)
  | create (c : CheckOutAnswers) (d : Desk) : Move cfg .idle d (created cfg c d) .idle
  | store (c : CheckOutAnswers) (now : Int) (d : Desk) :
      Move cfg (.timed now) d { d with rows := d.rows ++ [checkoutRow c now] } .idle
  | extend (now : Int) (owner aduser : Option String) (d : Desk) :
      Move cfg (.timed now) d (extended now owner aduser d) .idle
  | expire (set now : Int) (owner aduser : Option String) (d : Desk) :
      Move cfg (.twice set now) d (ended set now owner aduser d) .idle
  | list (now : Int) (uid : Option String) (d : Desk) :
      Move cfg (.timed now) d (note (.listed now uid (positions (offered uid now) d.rows)) d) .idle
  | select (t : Int) (d : Desk) :
      Move cfg (.timed t) d (note (.selected t ((picked t d.rows).map Prod.snd)) d)
        (.sweeping t (picked t d.rows))
  | search {t : Int} {rows : List (CheckoutRow × Nat)} {r : CheckoutRow × Nat} (mem : r ∈ rows)
      {sam : String} (name : r.1.aduser = some sam) (controller : Nat) (d : Desk) :
      Move cfg (.sweeping t rows) d (note (.searched controller sam) d)
        (.deleting t rows sam (toDelete cfg (((d.held controller).filter (named sam)).map Entry.dn)))
  | destroy (t : Int) (rows : List (CheckoutRow × Nat)) (sam : String) (i : Nat) (dn : String)
      (todo : List (Nat × String)) (d : Desk) :
      Move cfg (.deleting t rows sam ((i, dn) :: todo)) d { d with held := without i dn d.held }
        (.deleting t rows sam todo)
  | refuse (ph : Phase) (t : Int) (rows : List (CheckoutRow × Nat)) (d : Desk) :
      Move cfg ph d (note .refused d) (.spoiled t rows)
  | close {t : Int} {rows : List (CheckoutRow × Nat)} {r : CheckoutRow × Nat} (mem : r ∈ rows)
      {ph : Phase} (may : MayClose cfg r.1.aduser t rows ph) (d : Desk) :
      Move cfg ph d (closed r.1.aduser d) (.sweeping t rows)

section Conformance

variable {cfg : Config}

/-- Any way of ending. -/
def anyEnd {α : Type} (_ : Except Exn α) (_ : Phase) : Prop := True

theorem conforms_currentTimeMillis {ph : Phase} (next : Desk → Phase)
    (h : ∀ d, Move cfg ph d d (next d)) :
    Conforms (Move cfg) (fun r ph' => ∃ d : Desk, r = .ok d.clock ∧ ph' = next d) currentTimeMillis
      ph :=
  fun d => ⟨next d, h d, d, rfl, rfl⟩

/-- A statement that fails changes nothing. -/
theorem conforms_statement {α : Type} {fails : Bool} {f : Desk → α × Desk} {ph : Phase}
    (next : Desk → Phase) (h : ∀ d, Move cfg ph d (f d).2 (next d)) :
    Conforms (Move cfg) (fun r ph' => (∃ d, r = .ok (f d).1 ∧ ph' = next d) ∨
      ∃ e, r = .error e) (statement fails f) ph := by
  refine conforms_atom (fun d => ?_)
  cases fails with
  | true => exact ⟨.idle, .rest ph d, .inr ⟨_, rfl⟩⟩
  | false => exact ⟨next d, h d, .inl ⟨d, rfl, rfl⟩⟩

theorem conforms_discard {α : Type} {p : Act α} {ph : Phase}
    (h : Conforms (Move cfg) anyEnd p ph) :
    Conforms (Move cfg) anyEnd (do let _ ← p : Act Unit) ph :=
  conforms_bind h (fun _ _ _ => trivial) (fun _ _ _ => trivial)

/-- The clock is read and the program goes on with its value. -/
theorem conforms_timed {α : Type} {g : Int → Act α}
    (h : ∀ now, Conforms (Move cfg) anyEnd (g now) (.timed now)) :
    Conforms (Move cfg) anyEnd (currentTimeMillis >>= g) .idle := by
  refine conforms_bind (conforms_currentTimeMillis (fun d => .timed d.clock) Move.clock) ?_
    (fun _ _ _ => trivial)
  rintro now ph ⟨d, value, rfl⟩
  cases value
  exact h d.clock

/-- The last statement of a program. -/
theorem conforms_last {α β : Type} {fails : Bool} {f : Desk → α × Desk} {ph : Phase} {g : α → Act β}
    (h : ∀ d, Move cfg ph d (f d).2 .idle) (hg : ∀ a, Conforms (Move cfg) anyEnd (g a) .idle) :
    Conforms (Move cfg) anyEnd (statement fails f >>= g) ph := by
  refine conforms_bind (conforms_statement (fun _ => .idle) h) ?_ (fun _ _ _ => trivial)
  rintro a ph' (⟨d, -, rfl⟩ | ⟨e, raised⟩)
  · exact hg a
  · cases raised

theorem conforms_extendCheckedOutUser (fails : Bool) (owner aduser : Option String) :
    Conforms (Move cfg) anyEnd (extendCheckedOutUser fails owner aduser) .idle := by
  refine conforms_orElse (conforms_timed (fun now => ?_)) (fun _ _ h => h) (fun _ _ _ => trivial)
  exact conforms_last (fun d => .extend now owner aduser d) (fun _ => trivial)

theorem conforms_expireCheckedOutUser (fails : Bool) (owner aduser : Option String) :
    Conforms (Move cfg) anyEnd (expireCheckedOutUser fails owner aduser) .idle := by
  refine conforms_orElse (conforms_timed (fun set => ?_)) (fun _ _ h => h) (fun _ _ _ => trivial)
  refine conforms_bind (conforms_currentTimeMillis (fun d => .twice set d.clock)
    (Move.clockAgain set)) ?_ (fun _ _ _ => trivial)
  rintro now ph ⟨d, value, rfl⟩
  cases value
  exact conforms_last (fun d' => .expire set d.clock owner aduser d') (fun _ => trivial)

theorem conforms_getAvailableCheckedOutUsers (fails : Bool) (uid : Option String) :
    Conforms (Move cfg) anyEnd (getAvailableCheckedOutUsers fails uid) .idle := by
  refine conforms_orElse (conforms_timed (fun now => ?_)) (fun _ _ h => h) (fun _ _ _ => trivial)
  exact conforms_weaken (conforms_statement (fun _ => .idle) (fun d => .list now uid d))
    (fun _ _ _ => trivial)

theorem conforms_checkOut (c : CheckOutAnswers) :
    Conforms (Move cfg) anyEnd (checkOut cfg c) .idle := by
  intro d
  refine ⟨.idle, .create c d, ?_⟩
  refine conforms_timed (fun now => ?_)
  exact conforms_orElse (conforms_weaken (conforms_statement (fun _ => .idle)
    (fun d => .store c now d)) (fun _ _ _ => trivial)) (fun _ _ h => h) (fun _ _ _ => trivial)

/-- Where a program ends after its last call and after an exception. -/
def endsIn {α : Type} (finished raised : Phase) : Except Exn α → Phase → Prop
  | .ok _, ph => ph = finished
  | .error _, ph => ph = raised

/-- One call on one controller, with the pairs still to do. -/
theorem conforms_destroySubcontext {t : Int} {rows : List (CheckoutRow × Nat)} {sam : String}
    (fails : Bool) (i : Nat) (dn : String) (todo : List (Nat × String)) :
    Conforms (Move cfg) (endsIn (.deleting t rows sam todo) (.spoiled t rows))
      (destroySubcontext fails i dn) (.deleting t rows sam ((i, dn) :: todo)) := by
  refine conforms_atom (fun d => ?_)
  cases fails with
  | true => exact ⟨.spoiled t rows, .refuse _ t rows d, rfl⟩
  | false => exact ⟨.deleting t rows sam todo, .destroy t rows sam i dn todo d, rfl⟩

theorem conforms_destroyAll {t : Int} {rows : List (CheckoutRow × Nat)} {sam : String}
    (fails : Nat → Nat → Bool) (dns : List (String × Nat)) :
    Conforms (Move cfg) (endsIn (.deleting t rows sam []) (.spoiled t rows))
      (dns.forM (fun dn => (List.range cfg.dcs).forM (fun i =>
        destroySubcontext (fails dn.2 i) i dn.1)))
      (.deleting t rows sam (toDelete cfg (dns.map Prod.fst))) := by
  refine conforms_forM (fun rest => Phase.deleting t rows sam (toDelete cfg (rest.map Prod.fst)))
    (fun dn _ rest => ?_) rfl
  -- the inner loop works off the pairs of one DN
  refine conforms_forM (fun is => Phase.deleting t rows sam (is.map (fun i => (i, dn.1)) ++
    toDelete cfg (rest.map Prod.fst))) (fun i _ is => ?_) rfl
  refine conforms_weaken (conforms_destroySubcontext (fails dn.2 i) i dn.1 _) (fun r ph h => ?_)
  cases r with
  | ok a => exact h
  | error e => exact h

theorem conforms_search (c : DeleteAnswers) {t : Int} {rows : List (CheckoutRow × Nat)}
    {r : CheckoutRow × Nat} (mem : r ∈ rows) {sam : String} (name : r.1.aduser = some sam) :
    Conforms (Move cfg) (fun r ph => match r with
        | .ok dns => ph = .deleting t rows sam (toDelete cfg dns)
        | .error _ => ph = .spoiled t rows) (search c sam) (.sweeping t rows) := by
  refine conforms_atom (fun d => ?_)
  cases c.find with
  | true => exact ⟨.spoiled t rows, .refuse _ t rows d, rfl⟩
  | false => exact ⟨_, .search mem name c.controller d, rfl⟩

/-- What `deleteAdUser` leaves the sweep with: the right to close the rows of the account. -/
theorem conforms_deleteAdUser (c : DeleteAnswers) {t : Int} {rows : List (CheckoutRow × Nat)}
    {r : CheckoutRow × Nat} (mem : r ∈ rows) :
    Conforms (Move cfg) (fun _ ph => MayClose cfg r.1.aduser t rows ph)
      (deleteAdUser cfg c r.1.aduser) (.sweeping t rows) := by
  rw [deleteAdUser]
  split
  · rename_i sam domain asked placed
    have name : r.1.aduser = some sam := (Option.filter_eq_some_iff.mp asked).1
    have deletes : Conforms (Move cfg) (endsIn (.deleting t rows sam []) (.spoiled t rows)) (do
        let dns ← search c sam
        dns.zipIdx.forM (fun dn => (List.range cfg.dcs).forM (fun i =>
          destroySubcontext (c.destroy dn.2 i) i dn.1)) : Act Unit) (.sweeping t rows) := by
      refine conforms_bind (conforms_search c mem name) ?_ (fun _ _ h => h)
      rintro dns ph rfl
      have listed : (dns.zipIdx.map Prod.fst) = dns := List.zipIdx_map_fst 0 dns
      conv => arg 4; rw [← listed]
      exact conforms_destroyAll c.destroy dns.zipIdx
    refine conforms_orElse deletes ?_ ?_
    · rintro _ ph rfl
      exact .deleted name
    · rintro _ ph rfl
      exact .refused
  · rename_i unasked
    refine .skipped ?_
    by_cases domain : cfg.domain = ""
    · exact .inr domain
    · refine .inl ?_
      cases asked : given r.1.aduser with
      | none => rfl
      | some sam => exact absurd (given_some domain) (unasked sam cfg.domain asked)

theorem conforms_sweepRow (c : SweepAnswers) {t : Int} {rows : List (CheckoutRow × Nat)}
    {r : CheckoutRow × Nat} (mem : r ∈ rows) :
    Conforms (Move cfg) (passes (.sweeping t rows) anyEnd)
      (sweepRow cfg c r) (.sweeping t rows) := by
  refine conforms_bind (conforms_deleteAdUser (c.delete r.2) mem) (fun _ ph may => ?_)
    (fun _ _ _ => trivial)
  refine conforms_weaken (conforms_statement (fun _ => .sweeping t rows)
    (fun d => .close mem may d)) ?_
  rintro _ ph' (⟨d, rfl, rfl⟩ | ⟨e, rfl⟩)
  · rfl
  · trivial

theorem conforms_run (c : SweepAnswers) (active : Bool) :
    Conforms (Move cfg) anyEnd (run cfg c active) .idle := by
  rw [run]
  split
  · trivial
  · refine conforms_orElse (conforms_timed (fun t => ?_)) (fun _ _ h => h) (fun _ _ _ => trivial)
    refine conforms_bind (conforms_statement (fun d => .sweeping t (picked t d.rows))
      (fun d => .select t d)) ?_ (fun _ _ _ => trivial)
    rintro rows ph (⟨d, value, rfl⟩ | ⟨e, raised⟩)
    · cases value
      exact conforms_forM (fun _ => Phase.sweeping t (picked t d.rows))
        (fun r mem _ => conforms_sweepRow c mem) trivial
    · cases raised

theorem conforms_spawned {p : Act Unit} (h : Spawned cfg p) : Conforms (Move cfg) anyEnd p .idle := by
  cases h with
  | checkOut c => exact conforms_checkOut c
  | extend fails owner aduser => exact conforms_discard (conforms_extendCheckedOutUser _ _ _)
  | expire fails owner aduser => exact conforms_discard (conforms_expireCheckedOutUser _ _ _)
  | list fails uid => exact conforms_discard (conforms_getAvailableCheckedOutUsers _ _)
  | sweep c active => exact conforms_run c active

end Conformance

end CheckoutDesk
