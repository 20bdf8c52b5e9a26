import Proconsul.Application

/-!
# What no run takes back

The application only appends to the audit log. A checkout, a Domain Admin
registration or a token that was once stored stays stored: of a checkout nothing
changes but its expiration and its status, of a registration nothing but the time
it was disabled, of a token nothing but the time it was last used. The tables
behind the decisions are read and never written, and of the directory only the
accounts change: which groups there are stays the same, and who is in them is a
matter of the accounts.

Rows of `sessions` and `ports` come and go and are not considered.
-/

namespace Permanence

open Program Schema Surroundings Accounts Sessions Handlers Cleanup Lifecycle Interleaving Application

/-- The database without the tables that the application writes to. -/
def standing (db : Database) : Database :=
  { db with
    activeDomainAdmins := [], auditLog := [], checkout := [], csrfTokens := [], ports := []
    sessions := [] }

/-- Everything but the time at which a registration was disabled. -/
def registration (r : ActiveDomainAdminRow) : ActiveDomainAdminRow := { r with disabletime := none }

/-- Everything but the time at which a token was last used. -/
def tokenOf (r : CsrfRow) : CsrfRow := { r with lastused := 0 }

structure Stands (w w' : World) : Prop where
  policy : standing w'.db = standing w.db
  audit : w.db.auditLog <+: w'.db.auditLog
  checkouts : w.db.checkout.map fixedPart <+: w'.db.checkout.map fixedPart
  admins : w.db.activeDomainAdmins.map registration <+: w'.db.activeDomainAdmins.map registration
  tokens : w.db.csrfTokens.map tokenOf <+: w'.db.csrfTokens.map tokenOf
  groups : w'.ad.groups = w.ad.groups
  computers : w'.ad.computers = w.ad.computers

theorem stands_trans (w w' w'' : World) (h : Stands w w') (h' : Stands w' w'') : Stands w w'' where
  policy := h'.policy.trans h.policy
  audit := h.audit.trans h'.audit
  checkouts := h.checkouts.trans h'.checkouts
  admins := h.admins.trans h'.admins
  tokens := h.tokens.trans h'.tokens
  groups := h'.groups.trans h.groups
  computers := h'.computers.trans h.computers

/-- The six tables and the directory's groups and computers are where they were. -/
theorem stands_of_same {w w' : World} (policy : standing w'.db = standing w.db)
    (audit : w'.db.auditLog = w.db.auditLog) (checkouts : w'.db.checkout = w.db.checkout)
    (admins : w'.db.activeDomainAdmins = w.db.activeDomainAdmins)
    (tokens : w'.db.csrfTokens = w.db.csrfTokens) (groups : w'.ad.groups = w.ad.groups)
    (computers : w'.ad.computers = w.ad.computers) : Stands w w' where
  policy := policy
  audit := audit ▸ List.prefix_rfl
  checkouts := checkouts ▸ List.prefix_rfl
  admins := admins ▸ List.prefix_rfl
  tokens := tokens ▸ List.prefix_rfl
  groups := groups
  computers := computers

theorem stands_refl (w : World) : Stands w w := stands_of_same rfl rfl rfl rfl rfl rfl rfl

/-- One more row is a longer list of rows. -/
theorem prefix_append_row {ρ γ : Type} (f : ρ → γ) (rows : List ρ) (row : ρ) :
    rows.map f <+: (rows ++ [row]).map f := by
  rw [List.map_append]
  exact List.prefix_append _ _

/-- A change of what `f` does not see leaves `f`'s view as it was. -/
theorem prefix_updateWhere {ρ γ : Type} (f : ρ → γ) (change : ρ → ρ) (same : ∀ r, f (change r) = f r)
    (sel : ρ → Bool) (rows : List ρ) : rows.map f <+: (updateWhere sel change rows).map f := by
  rw [map_updateWhere same]

theorem stands_logs : Logs Stands where
  refl := stands_refl
  append w _ := { stands_refl w with audit := List.prefix_append _ _ }

theorem stands_disabled (w : World) (sel : ActiveDomainAdminRow → Bool) (now : Int) :
    Stands w (disabled sel now w) :=
  { stands_refl w with
    admins := prefix_updateWhere registration (fun r => { r with disabletime := some now })
      (fun _ => rfl) sel w.db.activeDomainAdmins }

theorem stands_script (adbase : String) (now : Int) (c : Container) :
    PermitsScript Stands adbase now c where
  auditLine _ w := { stands_refl w with audit := List.prefix_append _ _ }
  deleteSessions _ := stands_of_same rfl rfl rfl rfl rfl rfl rfl
  disconnectSessions _ := stands_of_same rfl rfl rfl rfl rfl rfl rfl
  deletePort _ := stands_of_same rfl rfl rfl rfl rfl rfl rfl
  deleteAccount _ := stands_of_same rfl rfl rfl rfl rfl rfl rfl
  endAdmins w := stands_disabled w _ now
  removeContainer _ := stands_of_same rfl rfl rfl rfl rfl rfl rfl

theorem stands_admits : Admits Stands where
  logs := stands_logs
  serves := {
    logs := stands_logs
    port := fun _ _ => stands_of_same rfl rfl rfl rfl rfl rfl rfl
    session := fun _ => ⟨fun _ => stands_of_same rfl rfl rfl rfl rfl rfl rfl,
      fun _ => stands_of_same rfl rfl rfl rfl rfl rfl rfl⟩
    engine := fun _ _ _ _ => stands_of_same rfl rfl rfl rfl rfl rfl rfl }
  accounts _ _ _ _ := stands_of_same rfl rfl rfl rfl rfl rfl rfl
  register w row := { stands_refl w with admins := prefix_append_row registration _ row }
  disable := stands_disabled
  issue w row := { stands_refl w with tokens := prefix_append_row tokenOf _ row }
  touch w sel now := { stands_refl w with
    tokens := prefix_updateWhere tokenOf (fun r => { r with lastused := now }) (fun _ => rfl) sel _ }
  lend w row := { stands_refl w with checkouts := prefix_append_row fixedPart _ row }
  reschedule w sel f same :=
    { stands_refl w with checkouts := prefix_updateWhere fixedPart f same sel _ }
  script := stands_script
  snapshot _ _ := stands_of_same rfl rfl rfl rfl rfl rfl rfl

theorem stands_docker {w w' : World} (moved : Docker w w') : Stands w w' := by
  cases moved <;> exact stands_of_same rfl rfl rfl rfl rfl rfl rfl

/-- In every run of the application, whatever overlaps and whatever fails, records stand from the
moment they are made. -/
theorem records_stand {cfg : Config} {adbase : String} {start : World} {P P' : Pool World Exn Unit}
    (reach : Reachable (Served cfg adbase) Docker (fun _ _ => True) start P)
    (later : Continues (Served cfg adbase) Docker (fun _ _ => True) P P') :
    Stands P.shared P'.shared := by
  have programs : ∀ p, Served cfg adbase p → p.Steps Stands :=
    fun p served => steps_served stands_admits served
  have moves : ∀ s t, Docker s t → Stands s t := fun _ _ => stands_docker
  have none : ∀ p ∈ (⟨start, []⟩ : Pool World Exn Unit).threads, p.Steps Stands := by
    intro p hp
    cases hp
  have first : Continues (Served cfg adbase) Docker (fun _ _ => True) ⟨start, []⟩ P := reach
  obtain ⟨-, running⟩ := continues_steps programs moves stands_refl stands_trans none first
  exact (continues_steps programs moves stands_refl stands_trans running later).1

/-- Pat asks for a session, and while she waits the containers of her site are cleaned up. -/
def patBeside : Pool World Exn Unit :=
  ⟨sampleSite, [patOpens "ab3de6fgh-eas", cleanup sampleConfig.targetbase (.first 0)]⟩

/-- Her request leaves four rows in the log, and everything that was on record still is. -/
theorem pats_records_stand :
    let P := (List.replicate 40 0 ++ List.replicate 3 1).foldl Pool.turn patBeside
    P.shared.db.auditLog.length = 4 ∧ Stands sampleSite P.shared := by
  have asked : Reachable (Served sampleConfig sampleConfig.targetbase) Docker (fun _ _ => True)
      sampleSite patBeside :=
    reachable_spawn (reachable_spawn .refl (.session (.user _ _ _)) trivial)
      (.session (.cleanup (.first 0))) trivial
  have later : Continues (Served sampleConfig sampleConfig.targetbase) Docker (fun _ _ => True)
      patBeside ((List.replicate 40 0 ++ List.replicate 3 1).foldl Pool.turn patBeside) :=
    continues_turns (patBeside.along_true _)
  exact ⟨by decide +kernel, records_stand asked later⟩

end Permanence
