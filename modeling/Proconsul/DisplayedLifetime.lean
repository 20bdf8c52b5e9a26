import Proconsul.CheckoutEffects

/-!
# The lifetime shown for a checkout

The list of checkouts shows how many hours a credential lives. The difference of
the two times is a `long` of milliseconds that is narrowed to an `int` before it
is divided, and an `int` holds less than six hundred hours. A checkout begins
with at most twelve, but a row that has not expired can be extended by two more
as often as one likes.

Rows are followed through any sequence of checkouts, extensions and early
expirations. The subtraction of two `long` values can wrap as well; the narrower
cast leaves nothing of that. A sum that leaves the range of the column is not
considered.
-/

namespace DisplayedLifetime

open Program Schema Text Surroundings Accounts Sessions Handlers Checkout CheckoutEffects

/-! ## Narrowing -/

/-- The quotient survives the cast exactly if the dividend does: what the cast loses is many hours. -/
theorem narrowed_tdiv_iff (d : Int) :
    (Int.bmod d (2 ^ 32)).tdiv 3600000 = d.tdiv 3600000 ↔ -2147483648 ≤ d ∧ d < 2147483648 := by
  have lower : -2147483648 ≤ Int.bmod d (2 ^ 32) := Int.le_bmod (by decide)
  have upper : Int.bmod d (2 ^ 32) < 2147483648 := Int.bmod_lt (by decide)
  constructor
  · intro same
    have wrapped := Int.bmod_add_bdiv d (2 ^ 32)
    have whole := Int.mul_tdiv_add_tmod d 3600000
    have narrow := Int.mul_tdiv_add_tmod (Int.bmod d (2 ^ 32)) 3600000
    rw [same] at narrow
    have hour : (0 : Int) < 3600000 := by decide
    have below := Int.tmod_lt_of_pos d hour
    have above := Int.lt_tmod_of_pos d hour
    have below' := Int.tmod_lt_of_pos (Int.bmod d (2 ^ 32)) hour
    have above' := Int.lt_tmod_of_pos (Int.bmod d (2 ^ 32)) hour
    omega
  · rintro ⟨above, below⟩
    have fits : Int.bmod d (2 ^ 32) = d := by
      apply Int.bmod_eq_of_le
      · exact above
      · exact below
    rw [fits]

/-! ## Reachable rows -/

/-- The rows that a checkout, and the two buttons under it, can make. -/
inductive Reached : CheckoutRow → Prop where
  | stored (c : CheckoutCalls) (req : Request) (form : CheckedOutCredRequest) (u : ADUser) :
      Reached (checkoutRow c req form u)
  | extended {r : CheckoutRow} (now : Int) (unexpired : alive now r = true) :
      Reached r → Reached (extendRow r)
  | ended {r : CheckoutRow} (now set : Int) (unexpired : alive now r = true) :
      Reached r → Reached { r with expiretime := some set }

theorem Reached.times {r : CheckoutRow} (h : Reached r) :
    ∃ s e, r.starttime = some s ∧ r.expiretime = some e := by
  induction h with
  | stored c req form u => exact ⟨c.now, expiration c form, rfl, rfl⟩
  | extended now _ _ ih =>
    obtain ⟨s, e, start, expire⟩ := ih
    exact ⟨s, e + 7200000, start, by simp [extendRow, expire]⟩
  | ended now set _ _ ih =>
    obtain ⟨s, -, start, -⟩ := ih
    exact ⟨s, set, start, rfl⟩

/-- Sequences of the three requests, one after the other, from a table without rows. -/
inductive Visited (cfg : Config) : World → Prop where
  | start {w : World} (empty : w.db.checkout = []) : Visited cfg w
  | checkOut {w : World} (c : CheckoutCalls) (req : Request) (form : CheckedOutCredRequest) :
      Visited cfg w → Visited cfg ((handleCheckOutPost cfg c req form).run w).2
  | extend {w : World} (c : ButtonCalls) (co : CheckedOutCred) (clientip : Option String) :
      Visited cfg w → Visited cfg ((extendCheckedOutUser c co clientip).run w).2
  | expire {w : World} (c : ButtonCalls) (co : CheckedOutCred) (clientip : Option String) :
      Visited cfg w → Visited cfg ((expireCheckedOutUser c co clientip).run w).2

/-- If every row was reached before, every row is afterwards. -/
def KeepsReached (w w' : World) : Prop :=
  (∀ r ∈ w.db.checkout, Reached r) → ∀ r ∈ w'.db.checkout, Reached r

theorem keepsReached_refl (w : World) : KeepsReached w w := fun h => h

theorem keepsReached_trans (w w' w'' : World) (h : KeepsReached w w') (h' : KeepsReached w' w'') :
    KeepsReached w w'' := fun all => h' (h all)

theorem quiet_reached : Quiet KeepsReached := fun _ _ _ _ _ _ _ all => all

theorem reached_store (fails : Bool) (c : CheckoutCalls) (req : Request)
    (form : CheckedOutCredRequest) (u : ADUser) :
    (storeCheckedOutUser fails (checkoutRow c req form u)).Steps KeepsReached := by
  refine Prog.steps_orElse (Prog.steps_bind (steps_execute keepsReached_refl _ _ _ ?_)
    (fun _ => Prog.steps_pure _)) _
  intro w all r hr
  rcases List.mem_append.mp hr with old | new
  · exact all r old
  · rw [List.mem_singleton.mp new]
    exact .stored c req form u

theorem reached_registerCheckout (cfg : Config) (c : CheckoutCalls) (req : Request)
    (form : CheckedOutCredRequest) (u : ADUser) :
    (registerCheckout cfg c req form u).Steps KeepsReached := by
  refine Prog.steps_bind (Prog.steps_foldlM (quiet_assignGroup quiet_reached cfg c _ _) _ _)
    (fun u => ?_)
  refine Prog.steps_bind (quiet_addGroupToADUser quiet_reached _ _ _ _ _ _) (fun o => ?_)
  refine Prog.steps_bind (steps_deref _) (fun limithost => ?_)
  refine Prog.steps_bind (Prog.steps_foldlM
    (fun _ _ => quiet_addWorkstationToADUser quiet_reached _ _ _ _ _ _) _ _) (fun u => ?_)
  exact Prog.steps_bind (reached_store _ _ _ _ _) (fun _ => Prog.steps_pure _)

theorem reached_handleCheckOutPost (cfg : Config) (c : CheckoutCalls) (req : Request)
    (form : CheckedOutCredRequest) : (handleCheckOutPost cfg c req form).Steps KeepsReached := by
  have gates : (inOrder (checkoutGates cfg c req form)).Steps KeepsReached :=
    Prog.steps_mono (fun _ _ tokens => quiet_reached.onlyTokens tokens)
      (steps_inOrder (onlyTokens_checkoutGates cfg c req form))
  refine Prog.steps_bind gates (fun answer => ?_)
  cases answer with
  | some page => exact Prog.steps_pure _
  | none =>
    refine Prog.steps_bind (quiet_createRandomizedADUser quiet_reached _ _ _) (fun u => ?_)
    refine Prog.steps_bind (steps_deref _) (fun u => ?_)
    exact reached_registerCheckout cfg c req form u

/-- Both buttons change the rows that are still alive, each in its own way. -/
theorem reached_button {f : CheckoutRow → CheckoutRow} (c : ButtonCalls) (co : CheckedOutCred)
    (event : String) (clientip : Option String)
    (change : ∀ r, alive c.now r = true → Reached r → Reached (f r)) :
    (Prog.orElse (do
      execute c.write .checkout ["expiretime", "owner", "aduser"] (fun db =>
        let changed := updateWhere (pressed co.authUser.uid co.targetUser.sAMAccountName c.now) f
          db.checkout
        ({ db with checkout := changed }, []))
      audit c.audit event co.authUser.uid co.targetHost co.targetUser.sAMAccountName none clientip
      return true) false : Run Bool).Steps KeepsReached := by
  refine Prog.steps_orElse (Prog.steps_bind (steps_execute keepsReached_refl _ _ _ ?_) (fun _ =>
    Prog.steps_bind (quiet_audit quiet_reached _ _ _ _ _ _ _) (fun _ => Prog.steps_pure _))) _
  intro w all r hr
  obtain ⟨r', hr', rfl⟩ := List.mem_map.mp hr
  by_cases hit : pressed co.authUser.uid co.targetUser.sAMAccountName c.now r' = true
  · rw [if_pos hit]
    rw [pressed, Bool.and_eq_true] at hit
    exact change r' hit.2 (all r' hr')
  · rw [if_neg hit]
    exact all r' hr'

theorem visited_reached {cfg : Config} {w : World} (h : Visited cfg w) :
    ∀ r ∈ w.db.checkout, Reached r := by
  induction h with
  | start empty =>
    rw [empty]
    simp
  | checkOut c req form _ ih =>
    exact Prog.run_related keepsReached_refl keepsReached_trans
      (reached_handleCheckOutPost cfg c req form) _ ih
  | extend c co clientip _ ih =>
    exact Prog.run_related keepsReached_refl keepsReached_trans
      (reached_button c co _ clientip (fun r live reached => .extended c.now live reached)) _ ih
  | expire c co clientip _ ih =>
    exact Prog.run_related keepsReached_refl keepsReached_trans
      (reached_button c co _ clientip (fun r live reached => .ended c.now c.set live reached)) _ ih

/-! ## What the list shows -/

/-- In every state reached, a row that is listed shows its lifetime in full hours exactly if the two
times are less than 2^31 milliseconds apart. -/
theorem displayed_lifetime_iff {cfg : Config} {w : World} (visited : Visited cfg w) (au : AuthUser)
    (now : Int) (localeString : Int → String) (r : CheckoutRow) (there : r ∈ w.db.checkout)
    (owned : sqlEq r.owner au.uid = true) (unexpired : alive now r = true) :
    ∃ creds s e, (getAvailableCheckedOutUsers false localeString au now).run w = (.ok creds, w) ∧
      listedCred localeString r ∈ creds ∧ r.starttime = some s ∧ r.expiretime = some e ∧
      ((listedCred localeString r).lifetime = (e - s).tdiv 3600000 ↔
        -2147483648 ≤ e - s ∧ e - s < 2147483648) := by
  obtain ⟨s, e, start, expire⟩ := (visited_reached visited r there).times
  have lifetime : (listedCred localeString r).lifetime = (Int.bmod (e - s) (2 ^ 32)).tdiv 3600000 := by
    simp [listedCred, start, expire]
  let shown := w.db.checkout.filter (fun r => sqlEq r.owner au.uid && alive now r)
  refine ⟨shown.map (listedCred localeString), s, e, ?_, ?_, start, expire, ?_⟩
  · rw [getAvailableCheckedOutUsers, Prog.run_orElse, run_query rfl]
    rfl
  · refine List.mem_map_of_mem (List.mem_filter.mpr ⟨there, ?_⟩)
    rw [owned, unexpired]
    rfl
  · rw [lifetime]
    exact narrowed_tdiv_iff (e - s)

/-! ## One checkout, extended again and again -/

/-- The checkout of four hours that Pat makes at time 0, expiring at `e`. -/
def patsRow (e : Int) : CheckoutRow :=
  ⟨some "pat@dom.ain", some 0, some e, some "host1.dom.ain", some "patching", some "ab3de6fgh-eas",
    some "active"⟩

def patsCred : CheckedOutCred := listedCred (fun _ => "") (patsRow 14400000)

/-- The button pressed `n` times, at once. -/
def extendedTimes : Nat → World
  | 0 => afterCheckout (some "host1.dom.ain")
  | n + 1 => ((extendCheckedOutUser (.noOutage 0) patsCred none).run (extendedTimes n)).2

theorem visited_extendedTimes (n : Nat) : Visited sampleConfig (extendedTimes n) := by
  induction n with
  | zero => exact .checkOut _ _ _ (.start rfl)
  | succ n ih => exact .extend _ _ _ ih

theorem checkout_extended {w : World} {e : Int} (table : w.db.checkout = [patsRow e]) (live : 0 ≤ e) :
    ((extendCheckedOutUser (.noOutage 0) patsCred none).run w).2.db.checkout =
      [patsRow (e + 7200000)] := by
  have hit : pressed patsCred.authUser.uid patsCred.targetUser.sAMAccountName 0 (patsRow e) = true := by
    simp [pressed, patsCred, patsRow, listedCred, namedUser, alive, live]
  let changed : World := { w with
    db := { w.db with checkout := [patsRow (e + 7200000)] }, trace := w.trace ++ [] }
  have written : (execute false .checkout ["expiretime", "owner", "aduser"] (fun db =>
      let extended := updateWhere (pressed patsCred.authUser.uid patsCred.targetUser.sAMAccountName 0)
        extendRow db.checkout
      ({ db with checkout := extended }, []))).run w = (.ok (), changed) := by
    rw [run_execute rfl]
    simp only [Bool.false_eq_true, if_false, table, changed, updateWhere, List.map_cons, List.map_nil,
      hit, if_true]
    rfl
  have logs : Logs (Keeps (fun w => w.db.checkout)) := ⟨fun _ => rfl, fun _ _ => rfl⟩
  have kept := keeps_run (steps_audit logs false "extendCheckedOutCredLifetime" patsCred.authUser.uid
    patsCred.targetHost patsCred.targetUser.sAMAccountName none none) changed
  obtain ⟨w', hlog, -⟩ := run_audit false "extendCheckedOutCredLifetime" patsCred.authUser.uid
    patsCred.targetHost patsCred.targetUser.sAMAccountName none none changed
  rw [hlog] at kept
  rw [extendCheckedOutUser, Prog.run_orElse_state, ButtonCalls.noOutage, Prog.run_bind_ok written,
    Prog.run_bind_ok hlog]
  exact kept

theorem checkout_extendedTimes (n : Nat) :
    (extendedTimes n).db.checkout = [patsRow (14400000 + 7200000 * n)] := by
  induction n with
  | zero => decide +kernel
  | succ n ih =>
    have later : (14400000 + 7200000 * (n : Int)) + 7200000 =
        14400000 + 7200000 * ((n + 1 : Nat) : Int) := by
      omega
    rw [extendedTimes, checkout_extended ih (by omega), later]

/-- After ten extensions the list shows twenty-four hours. -/
theorem ten_extensions_displayed :
    (listedCred (fun _ => "") (patsRow 86400000)).lifetime = 24 := by
  have table : (extendedTimes 10).db.checkout = [patsRow 86400000] := checkout_extendedTimes 10
  obtain ⟨_, _, _, -, -, ⟨rfl⟩, ⟨rfl⟩, right⟩ := displayed_lifetime_iff (visited_extendedTimes 10)
    sampleRequest.authUser 0 (fun _ => "") (patsRow 86400000)
      (by rw [table]; exact List.mem_singleton_self _)
    (by decide +kernel) (by decide +kernel)
  exact right.mpr (by decide)

/-- The 297th extension makes it 598 hours, and the list shows -595. -/
theorem many_extensions_displayed :
    Visited sampleConfig (extendedTimes 297) ∧
      (extendedTimes 297).db.checkout = [patsRow 2152800000] ∧
      alive 0 (patsRow 2152800000) = true ∧ (2152800000 - 0 : Int).tdiv 3600000 = 598 ∧
      (listedCred (fun _ => "") (patsRow 2152800000)).lifetime = -595 :=
  ⟨visited_extendedTimes 297, checkout_extendedTimes 297, by decide, by decide, by decide⟩

end DisplayedLifetime
