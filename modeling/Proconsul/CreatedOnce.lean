import Proconsul.Accounts

/-!
# How often one call creates the account

`createAdUser` offers the account to the controllers in turn until one takes
it. Between the create and `userCreated = true` stands a debug line that opens
another connection and asks it for its URL; an exception there is swallowed
with the flag still down, and the next controller that has not seen the
account creates it again.

The answers of the controllers are arbitrary. A wait for replication that
never ends leaves the log of the same call over the controllers before it, so
it needs no answer of its own.
-/

namespace CreatedOnce

open Program Surroundings Hosts Accounts

/-- A successful `createSubcontext`. -/
def isCreation : Effect → Bool
  | .accountCreated _ => true
  | _ => false

/-- Successful creates of one call, over all controllers. -/
def createdBy (w w' : World) : Nat := (newEffects w w').countP isCreation

/-- If the first controller that takes the account fails on the debug line,
then no later controller takes it. `start` is the first controller asked. -/
def NoSecondTaker (answers : Nat → ControllerAnswers) (start stop : Nat) : Prop :=
  ∀ first, start ≤ first → (∀ k, start ≤ k → k < first → (answers k).accepts = false) →
    (answers first).accepts = true → (answers first).environment = true →
      ∀ later, first < later → later < stop → (answers later).accepts = false

theorem creations_range_ne_zero (answers : Nat → ControllerAnswers) (start n : Nat) :
    creations answers false (List.range' start n) ≠ 0 ↔
      ∃ i, start ≤ i ∧ i < start + n ∧ (answers i).accepts = true := by
  rw [creations_ne_zero, List.any_eq_true]
  constructor
  · rintro ⟨i, asked, taken⟩
    obtain ⟨lower, upper⟩ := List.mem_range'_1.mp asked
    exact ⟨i, lower, upper, taken⟩
  · rintro ⟨i, lower, upper, taken⟩
    exact ⟨i, List.mem_range'_1.mpr ⟨lower, upper⟩, taken⟩

/-- The controller asked first takes the account. -/
theorem noSecondTaker_taken {answers : Nat → ControllerAnswers} {start stop : Nat}
    (taken : (answers start).accepts = true) :
    NoSecondTaker answers start stop ↔ ((answers start).environment = true →
      ∀ later, start < later → later < stop → (answers later).accepts = false) := by
  constructor
  · intro h
    apply h start (Nat.le_refl start) ?_ taken
    intro k lower upper
    omega
  · intro h first lower before taker
    have here : first = start := by
      by_contra differ
      have skipped := before start (Nat.le_refl start) (by omega)
      rw [taken] at skipped
      cases skipped
    rw [here]
    exact h

/-- The controller asked first does not take the account. -/
theorem noSecondTaker_passed {answers : Nat → ControllerAnswers} {start stop : Nat}
    (passed : (answers start).accepts = false) :
    NoSecondTaker answers start stop ↔ NoSecondTaker answers (start + 1) stop := by
  constructor
  · intro h first lower before
    apply h first (by omega)
    intro k above below
    by_cases here : k = start
    · rw [here]
      exact passed
    · exact before k (by omega) below
  · intro h first lower before taker
    have above : start + 1 ≤ first := by
      by_contra near
      have here : first = start := by omega
      rw [here, passed] at taker
      cases taker
    apply h first above ?_ taker
    intro k lower' upper
    exact before k (by omega) upper

/-- Induction over the controllers still to be asked, none of which has been
told that the account exists. -/
theorem creations_le_one (answers : Nat → ControllerAnswers) (start n : Nat) :
    creations answers false (List.range' start n) ≤ 1 ↔
      NoSecondTaker answers start (start + n) := by
  induction n generalizing start with
  | zero =>
    simp only [List.range'_zero, creations, Nat.zero_le, true_iff]
    intro first lower before taker raised later above below
    omega
  | succ n ih =>
    rw [List.range'_succ, creations]
    have rest : start + 1 + n = start + (n + 1) := by omega
    cases taken : (answers start).accepts with
    | true =>
      rw [if_pos rfl, noSecondTaker_taken taken]
      cases (answers start).environment with
      | false => simp [creations_true]
      | true =>
        have again := creations_range_ne_zero answers (start + 1) n
        rw [rest] at again
        constructor
        · intro once _ later above below
          by_contra taker
          have second := again.mpr ⟨later, by omega, below, by simpa using taker⟩
          simp only [Bool.not_true] at once
          omega
        · intro none_later
          have nothing : creations answers false (List.range' (start + 1) n) = 0 := by
            by_contra more
            obtain ⟨later, above, below, taker⟩ := again.mp more
            rw [none_later rfl later (by omega) below] at taker
            cases taker
          simp [nothing]
    | false =>
      rw [if_neg (by simp), noSecondTaker_passed taken, ih, rest]

theorem createdBy_replicate {sam dn : String} {k : Nat} {w w' : World}
    (created : Created sam dn k w w') : createdBy w w' = k := by
  rw [createdBy, newEffects_of_append created.trace, List.countP_replicate]
  simp [isCreation]

theorem createdBy_self (w : World) : createdBy w w = 0 := by
  rw [createdBy, newEffects_of_same rfl]
  rfl

/-- One call creates the account at most once, exactly when it does not reach
the controllers at all or no controller takes the account after the debug line
of the first taker has raised. -/
theorem account_created_once_iff (cfg : Config) (c : CreateCalls) (au : Option AuthUser)
    (u : ADUser) (w : World) :
    createdBy w ((createAdUser cfg c au u).run w).2 ≤ 1 ↔
      (given u.sAMAccountName ≠ none → given u.adDomain ≠ none →
        NoSecondTaker c.controller 0 cfg.dcs) := by
  cases named : given u.sAMAccountName with
  | none =>
    have unchanged : ((createAdUser cfg c au u).run w).2 = w := by simp [createAdUser, named]
    rw [unchanged, createdBy_self]
    simp
  | some sam =>
    cases placed : given u.adDomain with
    | none =>
      have unchanged : ((createAdUser cfg c au u).run w).2 = w := by
        simp [createAdUser, named, placed]
      rw [unchanged, createdBy_self]
      simp
    | some domain =>
      obtain ⟨w', hrun, created⟩ := run_createAdUser cfg c au named placed w
      have exact_count := creations_le_one c.controller 0 cfg.dcs
      rw [← List.range_eq_range', Nat.zero_add] at exact_count
      rw [hrun, createdBy_replicate created, exact_count]
      simp

/-- Two controllers; both see the name as free, and the debug line after the
first create raises. -/
def twoDcs : Config := { sampleConfig with dcs := 2, dcs_pos := Nat.two_pos }

def raisedAfterCreate : CreateCalls where
  names := fun _ => "u1"
  drawn := fun _ => by decide
  lookup := fun _ => false
  password := "pw"
  posix := false
  controller := fun i => ⟨some true, false, i == 0, false, false⟩
  audit := false

def newUser : ADUser := ⟨some "u1", some "pw", some "dom.ain", some "ou=proconsul", [], false⟩

/-- Both overloads create the account on both controllers. -/
theorem debug_line_creates_twice :
    createdBy .empty ((createAdUser twoDcs raisedAfterCreate none newUser).run .empty).2 = 2 ∧
      createdBy .empty ((createAdUser twoDcs raisedAfterCreate (some ⟨some "alice", [], []⟩)
        newUser).run .empty).2 = 2 := by
  decide +kernel

end CreatedOnce
