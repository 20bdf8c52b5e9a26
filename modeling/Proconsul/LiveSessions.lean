import Proconsul.Lifecycle

/-!
# What the script of one container does to the sessions of others

The script knows a session only by its account: it deletes or disconnects
every row of that `samaccountname`, and deletes the account itself. As long as
no account has two containers at a time, no other session is hit. A reconnect
before the old container is gone, and a static account on two hosts, break
this; the look at other containers' processes does not repair it, since it
only chooses between the two branches.
-/

namespace LiveSessions

open Program Schema Text Surroundings Hosts Accounts Sessions Handlers Cleanup Interleaving Lifecycle

/-! ## The property and its condition -/

def belongs (d : Container) (r : SessionRow) : Bool :=
  sqlEq r.samaccountname (some d.winuser) && sqlEq r.fqdn (some d.rhostname)

/-- Rows and accounts of sessions in which another container runs are still
there, as they were. -/
structure Spares (c : Container) (w w' : World) : Prop where
  sessions : ∀ d ∈ running w.engine, d.id ≠ c.id → ∀ r ∈ w.db.sessions, belongs d r = true →
    r ∈ w'.db.sessions
  accounts : ∀ d ∈ running w.engine, d.id ≠ c.id → ∀ a ∈ w.ad.accounts,
    nameEq a.sam d.winuser = true → a ∈ w'.ad.accounts

def cleanings (w w' : World) : List Container :=
  (newEffects w w').filterMap (fun e => match e with
    | .cleaned c => some c
    | _ => none)

/-- No container is listed while its script is pending; a container is created
only where no other container has its account; what `ldapdelete` is told to
delete is the account of that name. -/
def Undisturbed (adbase : String) (w w' : World) : Prop :=
  (∀ id ∈ newScripts w w', id ∉ w.scripts) ∧
  (∀ c ∈ w'.engine.containers, w.engine.nextId ≤ c.id → ∀ d ∈ w.engine.containers,
    sqlEq (some d.winuser) (some c.winuser) = false) ∧
  (∀ c ∈ cleanings w w', ∀ a ∈ w.ad.accounts, addressed adbase c.winuser a.dn = true →
    nameEq a.sam c.winuser = true)

instance (adbase : String) : DecidableRel (Undisturbed adbase) := fun w w' =>
  inferInstanceAs (Decidable ((∀ id ∈ newScripts w w', id ∉ w.scripts) ∧
    (∀ c ∈ w'.engine.containers, w.engine.nextId ≤ c.id → ∀ d ∈ w.engine.containers,
      sqlEq (some d.winuser) (some c.winuser) = false) ∧
    (∀ c ∈ cleanings w w', ∀ a ∈ w.ad.accounts, addressed adbase c.winuser a.dn = true →
      nameEq a.sam c.winuser = true)))

theorem mem_cleanings {w w' : World} {c : Container} :
    c ∈ cleanings w w' ↔ .cleaned c ∈ newEffects w w' := by
  rw [cleanings, List.mem_filterMap]
  constructor
  · rintro ⟨e, he, hc⟩
    cases e <;> simp at hc
    exact hc ▸ he
  · intro h
    exact ⟨_, h, rfl⟩

/-! ## One container for each account -/

def Exclusive (w : World) : Prop :=
  ∀ x ∈ identities w.engine, ∀ y ∈ identities w.engine, x.id ≠ y.id →
    sqlEq (some x.winuser) (some y.winuser) = false

theorem Exclusive.mono {w w' : World} (h : Exclusive w)
    (sub : ∀ x ∈ identities w'.engine, x ∈ identities w.engine) : Exclusive w' :=
  fun x hx y hy => h x (sub x hx) y (sub y hy)

variable {adbase : String}

theorem exclusive_move {w w' : World} {ph ph' : Phase} (h : Exclusive w)
    (move : Move adbase ph w w' ph') (cond : Undisturbed adbase w w') : Exclusive w' := by
  cases move with
  | apart same => exact h.mono (by rw [same.engine]; exact fun _ hx => hx)
  | choose => exact h
  | probe => exact h
  | reserve => exact h
  | @create _ make effects =>
    let new : Container := { make w.engine.nextId with id := w.engine.nextId }
    have alone : ∀ y ∈ identities w.engine, sqlEq (some y.winuser) (some new.winuser) = false := by
      intro y hy
      obtain ⟨d, hd, rfl⟩ := List.mem_map.mp hy
      exact cond.2.1 new (List.mem_append_right _ (List.mem_singleton_self _)) (Nat.le_refl _) d hd
    intro x hx y hy differ
    rw [identities_create, List.mem_append, List.mem_singleton] at hx hy
    rcases hx with hx | rfl <;> rcases hy with hy | rfl
    · exact h x hx y hy differ
    · exact alone x hx
    · rw [Bool.eq_false_iff]
      intro same
      exact absurd (sqlEq_symm same) (by simp [alone y hy, new])
    · exact absurd rfl differ
  | start => exact h.mono (by simp)
  | snapshot => exact h
  | clean cleans => rcases cleans with rfl | rfl | rfl <;> exact h
  | release => exact h
  | @remove _ c rest =>
    refine h.mono (fun x hx => ?_)
    rw [removeContainer] at hx
    split at hx
    · exact hx
    · rw [identities_remove] at hx
      exact (mem_deleteWhere.mp hx).1

theorem exclusive_docker {w w' : World} (h : Exclusive w) (moved : Docker w w') : Exclusive w' := by
  cases moved with
  | launch up => exact h.mono (by simp)
  | exit up retval => exact h.mono (by simp)

/-! ## Cleaning steps -/

/-- Only the commands of a script clean up, and for the container at its head. -/
theorem cleans_of_cleaned {w w' : World} {ph ph' : Phase} {c : Container}
    (move : Move adbase ph w w' ph') (cleaned : .cleaned c ∈ newEffects w w') :
    c ∈ ph.todo ∧ Cleans adbase c w w' := by
  have logged : ∀ {effects : List Effect}, w'.trace = w.trace ++ effects →
      (∀ d, .cleaned d ∉ effects) → False := by
    intro effects added other
    rw [newEffects_of_append added] at cleaned
    exact other c cleaned
  have silent : w'.trace ≠ w.trace := by
    intro same
    rw [newEffects_of_same same] at cleaned
    cases cleaned
  cases move with
  | apart same =>
    obtain ⟨effects, added, other⟩ := same.log
    exact (logged added other).elim
  | choose => exact absurd rfl silent
  | probe => exact absurd rfl silent
  | reserve => exact (logged rfl (by simp)).elim
  | create new other => exact (logged rfl other).elim
  | start new other => exact (logged rfl other).elim
  | snapshot => exact absurd rfl silent
  | @clean _ _ d rest released cleans =>
    have added : w'.trace = w.trace ++ [.cleaned d] := by
      rcases cleans with rfl | rfl | rfl <;> rfl
    rw [newEffects_of_append added, List.mem_singleton] at cleaned
    cases cleaned
    exact ⟨List.mem_cons_self, cleans⟩
  | release => exact absurd rfl silent
  | remove => exact absurd rfl silent

theorem spares_of_cleans {w w' : World} {c : Container} (cleans : Cleans adbase c w w')
    (alone : ∀ d ∈ running w.engine, d.id ≠ c.id →
      sqlEq (some c.winuser) (some d.winuser) = false)
    (named : ∀ a ∈ w.ad.accounts, addressed adbase c.winuser a.dn = true →
      nameEq a.sam c.winuser = true) : Spares c w w' := by
  have row : ∀ d ∈ running w.engine, d.id ≠ c.id → ∀ r : SessionRow, belongs d r = true →
      ofUser c r = false := by
    intro d hd differ r hr
    rw [Bool.eq_false_iff]
    intro both
    have shared := sqlEq_trans (sqlEq_symm both) (Bool.and_eq_true_iff.mp hr).1
    rw [alone d hd differ] at shared
    cases shared
  have account : ∀ d ∈ running w.engine, d.id ≠ c.id → ∀ a ∈ w.ad.accounts,
      nameEq a.sam d.winuser = true → addressed adbase c.winuser a.dn = false := by
    intro d hd differ a ha hsam
    rw [Bool.eq_false_iff]
    intro there
    have shared : sqlEq (some c.winuser) (some d.winuser) = true :=
      beq_iff_eq.mpr (sqlKey_of_nameEq (nameEq_trans (nameEq_symm (named a ha there)) hsam))
    rw [alone d hd differ] at shared
    cases shared
  rcases cleans with rfl | rfl | rfl
  · exact ⟨fun d hd differ r hr mine => mem_deleteWhere.mpr ⟨hr, row d hd differ r mine⟩,
      fun _ _ _ _ ha _ => ha⟩
  · exact ⟨fun d hd differ r hr mine => mem_updateWhere_of_not hr (row d hd differ r mine),
      fun _ _ _ _ ha _ => ha⟩
  · exact ⟨fun _ _ _ _ hr _ => hr,
      fun d hd differ a ha mine => kept_deleteAccount ha (account d hd differ a ha mine)⟩

/-! ## Every run -/

/-- The first container exits with 2 in /tmp/retval and docker-gen starts. -/
def firstExits (P : Pool World Exn Unit) : Pool World Exn Unit :=
  ⟨{ P.shared with engine := P.shared.engine.setStatus 0 (.exited (some 2)) },
    P.threads ++ [cleanup sampleConfig.targetbase (.first 0)]⟩

theorem undisturbed_refl (w : World) : Undisturbed adbase w w := by
  refine ⟨by simp [newScripts], fun c hc new => ?_, by simp [cleanings, newEffects]⟩
  exact absurd (w.engine.fresh c hc) (Nat.not_lt.mpr new)

/-- The script of the first container is about to touch the sessions. -/
def aboutToClean (P : Pool World Exn Unit) : Pool World Exn Unit :=
  (List.replicate 5 2).foldl Pool.turn (firstExits P)

theorem reachable_aboutToClean {C : World → World → Prop} {P : Pool World Exn Unit}
    (reach : Reachable (Spawned sampleConfig sampleConfig.targetbase) Docker C sampleSite P)
    (up : ∃ c ∈ running P.shared.engine, c.id = 0) (cond : C P.shared (firstExits P).shared)
    (refl : ∀ w, C w w) (met : (firstExits P).Along C (List.replicate 5 2)) :
    Reachable (Spawned sampleConfig sampleConfig.targetbase) Docker C sampleSite (aboutToClean P) := by
  obtain ⟨c, hc, hid⟩ := up
  have exits : Docker P.shared (firstExits P).shared := by
    have moved := Docker.exit hc (some 2)
    rwa [hid] at moved
  exact reachable_turns (reachable_spawn (reachable_env reach exits cond)
    (.cleanup (.first 0)) (refl _)) met

theorem step_of_cleaning {P : Pool World Exn Unit} {i : Nat} {c : Container}
    (hc : c ∈ cleanings P.shared (P.turn i).shared) (Spawn : Run Unit → Prop) :
    Pool.Step Spawn Docker P (P.turn i) := by
  rcases P.turn_step Spawn Docker i with step | idle
  · exact step
  · simp [idle, cleanings, newEffects] at hc

/-- Two sessions of Pat under different accounts. -/
def twoAccounts : Pool World Exn Unit :=
  (List.replicate 27 0 ++ List.replicate 27 1).foldl Pool.turn
    ⟨sampleSite, [patOpens "ab3de6fgh-eas", patOpens "zy2xw4vut-eas" plainName_second]⟩

/-- Pat's session and its reconnect, both containers running. -/
def reconnectedEarly : Pool World Exn Unit :=
  (List.replicate 30 0 ++ List.replicate 15 1).foldl Pool.turn
    ⟨sampleSite, [patOpens "ab3de6fgh-eas", patReconnects]⟩

end LiveSessions
