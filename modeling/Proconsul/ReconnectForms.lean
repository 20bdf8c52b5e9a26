import Proconsul.MainPage
import Proconsul.Reconnection
import Proconsul.SessionStorage

/-!
# The reconnect buttons of the main page

The page has a form for each stored session, in one list per type, but the
form carries a host name only. The handler that receives it goes through all
sessions of the user and keeps the last one on that host. The result says for
which sessions a click on their own button leads back to them.
-/

namespace ReconnectForms

open Program Schema Text Surroundings Access Hosts Accounts Sessions Handlers Starting
open MainPage SessionStorage Reconnection

/-! ## Forms -/

/-- The hidden fields of a reconnect form; a null host is rendered as the empty string. -/
def reconnectForm (csrfToken : String) (d : DisplayFQDN) : ReconnectRequest :=
  ⟨some (d.fqdn.getD ""), none, some csrfToken⟩

def forms (view : MainView) : List ReconnectRequest :=
  (view.userSessionList ++ view.staticSessionList ++ view.domainSessionList ++
    view.delegatedSessionList).map (reconnectForm view.csrfToken)

/-- The types that have a list of their own. -/
def listedTypes : List String := ["user", "static", "domain", "delegated"]

theorem run_getAvailableSessionDisplayFQDNs (au : AuthUser) (stype : String) (w : World) :
    (getAvailableSessionDisplayFQDNs false au stype).run w =
      (.ok ((sessionRows au stype w.db).map displayed), w) := by
  rw [getAvailableSessionDisplayFQDNs, Prog.run_orElse, run_query rfl]
  rfl

/-- Every session of a listed type has its form on the page. -/
theorem form_rendered {cfg : Config} {uuid : String} {now : Int} {req : Request} {w w' : World}
    {view : MainView}
    (rendered : (handleRootRequest cfg (.noOutage uuid now) req).run w = (.ok (.mary view), w'))
    {stype : String} (listed : stype ∈ listedTypes) {r : SessionRow}
    (mine : r ∈ sessionRows req.authUser stype w.db) :
    reconnectForm view.csrfToken (displayed r) ∈ forms view := by
  obtain ⟨⟨tokens, rfl⟩, -, -, shows⟩ := handleRootRequest_shows rendered
  have lists : ∀ stype list, (getAvailableSessionDisplayFQDNs false req.authUser stype).run
      { w with db := { w.db with csrfTokens := tokens } } = (.ok list, { w with db := { w.db with
        csrfTokens := tokens } }) → r ∈ sessionRows req.authUser stype w.db → displayed r ∈ list := by
    intro stype list hrun hr
    rw [run_getAvailableSessionDisplayFQDNs] at hrun
    cases hrun
    exact List.mem_map_of_mem hr
  apply List.mem_map_of_mem
  simp only [List.mem_append]
  simp only [listedTypes, List.mem_cons, List.not_mem_nil, or_false] at listed
  rcases listed with rfl | rfl | rfl | rfl
  · exact .inl (.inl (.inl (lists _ _ shows.user mine)))
  · exact .inl (.inl (.inr (lists _ _ shows.static mine)))
  · exact .inl (.inr (lists _ _ shows.domain mine))
  · exact .inr (lists _ _ shows.delegated mine)

/-! ## A click passes the gates -/

/-- The row of a servlet session in `csrf_tokens`. -/
def tokenRow (sessionId : String) (db : Database) : Option CsrfRow :=
  (db.csrfTokens.filter (fun r => sqlEq r.sessionId (some sessionId))).head?

/-- The stored token of a servlet session, or the one it is given now. -/
theorem run_getSessionCSRFToken (write : Bool) (uuid : String) (now : Int) (req : Request)
    (w : World) :
    ∃ w', (getSessionCSRFToken ⟨false, write, uuid, now⟩ req).run w =
        (.ok ((tokenRow req.sessionId w.db).elim (some uuid) CsrfRow.csrfToken), w') ∧
      (write = false → w'.db.csrfTokens = (tokenRow req.sessionId w.db).elim
        (w.db.csrfTokens ++ [⟨some req.sessionId, some uuid, now⟩])
        (fun _ => updateWhere (fun r => sqlEq r.sessionId (some req.sessionId))
          (fun r => { r with lastused := now }) w.db.csrfTokens)) := by
  rw [getSessionCSRFToken, Prog.run_bind, Prog.run_attempt, run_query rfl]
  simp only [Bool.false_eq_true, if_false]
  rw [← tokenRow]
  cases tokenRow req.sessionId w.db <;> cases write
  · exact ⟨_, rfl, fun _ => rfl⟩
  · exact ⟨_, rfl, by simp⟩
  · exact ⟨_, rfl, fun _ => rfl⟩
  · exact ⟨_, rfl, by simp⟩

/-- The token of a page is still valid when the page is gone. -/
theorem token_stays_valid {uuid token : String} {now : Int} {get post : Request} {w w' : World}
    (drawn : (getSessionCSRFToken ⟨false, false, uuid, now⟩ get).run w = (.ok (some token), w'))
    (session : post.sessionId = get.sessionId) (write : Bool) (uuid' : String) (now' : Int) :
    ((getSessionCSRFToken ⟨false, write, uuid', now'⟩ post).run w').1 = .ok (some token) := by
  obtain ⟨w₁, hget, stored⟩ := run_getSessionCSRFToken false uuid now get w
  obtain ⟨w₂, hpost, -⟩ := run_getSessionCSRFToken write uuid' now' post w'
  rw [drawn] at hget
  obtain ⟨htoken, rfl⟩ := Prod.mk.inj hget
  have held := Except.ok.inj htoken
  have table := stored rfl
  have found : (tokenRow post.sessionId w'.db).elim (some uuid') CsrfRow.csrfToken = some token := by
    rw [tokenRow, table, session]
    cases hrow : tokenRow get.sessionId w.db with
    | none =>
      rw [hrow] at held
      have own : [(⟨some get.sessionId, some uuid, now⟩ : CsrfRow)].filter
          (fun r => sqlEq r.sessionId (some get.sessionId)) =
          [⟨some get.sessionId, some uuid, now⟩] := by simp
      have none : w.db.csrfTokens.filter (fun r => sqlEq r.sessionId (some get.sessionId)) = [] :=
        List.head?_eq_none_iff.mp hrow
      rw [Option.elim_none, List.filter_append, none, own]
      exact held.symm
    | some row =>
      rw [hrow] at held
      -- the update of `lastused` leaves row and token in their place
      have head : (updateWhere (fun r => sqlEq r.sessionId (some get.sessionId))
          (fun r => { r with lastused := now }) w.db.csrfTokens).filter
            (fun r => sqlEq r.sessionId (some get.sessionId)) =
          updateWhere (fun r => sqlEq r.sessionId (some get.sessionId))
            (fun r => { r with lastused := now })
            (w.db.csrfTokens.filter (fun r => sqlEq r.sessionId (some get.sessionId))) := by
        apply filter_updateWhere
        intro r
        rfl
      rw [Option.elim_some, head, updateWhere, List.head?_map, ← tokenRow, hrow]
      simp only [Option.map_some, Option.elim_some]
      split <;> exact held.symm
  rw [hpost, found]

theorem passes_reconnectGate {cfg : Config} {uuid : String} {now : Int} {get post : Request}
    {w w' : World} {view : MainView} {host : String} (pw vnc : String)
    (rendered : (handleRootRequest cfg (.noOutage uuid now) get).run w = (.ok (.mary view), w'))
    (user : post.authUser = get.authUser) (session : post.sessionId = get.sessionId)
    (origin : checkOrigin post = true) (nonempty : host ≠ "") :
    ∃ w₁, OnlyTokens w' w₁ ∧ (reconnectGate (.noOutage pw vnc) post
      ⟨some host, none, some view.csrfToken⟩).run w' = (.ok none, w₁) := by
  obtain ⟨-, drawn, happ, -⟩ := handleRootRequest_shows rendered
  have valid := token_stays_valid drawn session false "" 0
  have target : targetGate ⟨some host, none, some view.csrfToken⟩ = pure none := by
    rw [targetGate, if_neg (by simp [given_some nonempty]), if_neg (by simp)]
  have app : (refuseUnless (canUseApp AccessCalls.noOutage post.authUser)
      (appMessage post.authUser ++ ".")).run w' = (.ok none, w') := by
    have allowed : (canUseApp AccessCalls.noOutage get.authUser).run w' = (.ok true, w') := happ
    rw [refuseUnless, user, Prog.run_bind_ok allowed]
    rfl
  have tokens := onlyTokens_run (onlyTokens_csrfGate .noOutage post (some view.csrfToken)
    reconnectCsrf) w'
  have csrf : ∃ w₁, (csrfGate .noOutage post (some view.csrfToken) reconnectCsrf).run w' =
      (.ok none, w₁) := by
    unfold csrfGate
    rw [if_pos origin]
    rcases ht : (getSessionCSRFToken TokenCalls.noOutage post).run w' with ⟨r, w₁⟩
    obtain rfl : r = .ok (some view.csrfToken) := (congrArg Prod.fst ht).symm.trans valid
    refine ⟨w₁, ?_⟩
    dsimp only
    rw [Prog.run_bind_ok ht, if_pos rfl]
    rfl
  obtain ⟨w₁, hcsrf⟩ := csrf
  rw [hcsrf] at tokens
  refine ⟨w₁, tokens, ?_⟩
  have gates : reconnectGates (.noOutage pw vnc) post ⟨some host, none, some view.csrfToken⟩ =
      [pure none, refuseUnless (canUseApp AccessCalls.noOutage post.authUser)
        (appMessage post.authUser ++ "."),
        csrfGate .noOutage post (some view.csrfToken) reconnectCsrf] := by
    rw [reconnectGates, target]
    rfl
  rw [reconnectGate, gates, run_inOrder_cons rfl, run_inOrder_cons app, run_inOrder_cons hcsrf]
  rfl

/-! ## Which session the handler takes -/

def onHost (host : String) (r : SessionRow) : Bool := r.fqdn.any (fun f => equalsIgnoreCase f host)

/-- The last row of the user on the host, as far as the rows can be read. -/
def lastOnHost (au : AuthUser) (db : Database) (host : String) : Option SessionRow :=
  (((ownRows au db).takeWhile readable).filter (onHost host)).getLast?

theorem matchesRequest_readAs {au : AuthUser} {startTime host : String} {r : SessionRow}
    {s : ProconsulSession} (known : au.uid ≠ none) (read : ReadAs au startTime r s) :
    matchesRequest au (some host) s = onHost host r := by
  obtain ⟨user, status, -, -, rfl⟩ := read
  obtain ⟨uid, huid⟩ := Option.ne_none_iff_exists'.mp known
  simp [matchesRequest, onHost, storedSession, huid, equalsIgnoreCase]

section Last

variable {α β : Type} {R : α → β → Prop} {xs : List α} {ys : List β}

theorem forall₂_getLast? (h : List.Forall₂ R xs ys) : Option.Rel R xs.getLast? ys.getLast? := by
  induction h with
  | nil => exact .none
  | cons hxy rest ih =>
    cases rest with
    | nil => exact .some hxy
    | cons hxy' rest' => simpa using ih

end Last

theorem chooseSession_read {au : AuthUser} {startTime host : String} {rows : List SessionRow}
    {psa : List ProconsulSession} (known : au.uid ≠ none)
    (read : List.Forall₂ (ReadAs au startTime) rows psa) :
    Option.Rel (ReadAs au startTime) (rows.filter (onHost host)).getLast?
      (chooseSession au (some host) psa) := by
  refine forall₂_getLast? (List.rel_filter ?_ read)
  intro r s hread
  change onHost host r = true ↔ matchesRequest au (some host) s = true
  rw [matchesRequest_readAs known hread]

/-- The request starts one container, and it signs in as the account of the row. -/
def ResumesRow (cfg : Config) (c : ReconnectCalls) (req : Request) (form : ReconnectRequest)
    (w : World) (r : SessionRow) : Prop :=
  (started (newEffects w ((handleReconnectPost cfg c req form).run w).2)).map Container.winuser =
    [javaString r.samaccountname]

/-- The row is on a named host, and the last row there has the same account. -/
def LastOnHost (au : AuthUser) (db : Database) (r : SessionRow) : Prop :=
  ∃ host, r.fqdn = some host ∧ host ≠ "" ∧ ∃ l, lastOnHost au db host = some l ∧
    javaString l.samaccountname = javaString r.samaccountname

/-- A form without a host name is refused before anything is looked up. -/
theorem nameless_form_refused (cfg : Config) (c : ReconnectCalls) (req : Request) (w : World)
    (token : String) :
    ((handleReconnectPost cfg c req ⟨some "", none, some token⟩).run w).2 = w := by
  have target : targetGate ⟨some "", none, some token⟩ =
      pure (some (.authzError "No target system specified.")) := by
    rw [targetGate, if_pos (by simp [given])]
  rw [handleReconnectPost, reconnectGate, reconnectGates, target]
  rfl

/-- The accounts that containers of a resumed session sign in as. -/
theorem winusers_resume (cfg : Config) (pw vnc : String) (size : Image) (s : ProconsulSession)
    (addr : Option String) (w : World) :
    ∃ effects, ((resume cfg (.noOutage pw vnc) size s addr).run w).2.trace = w.trace ++ effects ∧
      (started effects).map Container.winuser =
        if allocates .noOutage w && (⟨false, false⟩ : ContainerCalls).succeed cfg then
          [javaString s.targetUser.sAMAccountName] else [] := by
  rcases opens_resume cfg (.noOutage pw vnc) size s addr w with ⟨no, same⟩ |
      ⟨yes, row, q, hrun, starts⟩
  · have none : allocates .noOutage w = false := no
    refine ⟨[], by rw [same]; simp, ?_⟩
    rw [none]
    rfl
  · have some : allocates .noOutage w = true := yes
    obtain ⟨-, effects, added, hout⟩ := starts (reserve row w)
    refine ⟨[.portReserved row.portnum] ++ effects, ?_, ?_⟩
    · rw [hrun, added, reserve, List.append_assoc]
    · have quiet : started [Effect.portReserved row.portnum] = [] := rfl
      rw [started_append, quiet, List.nil_append, some, Bool.true_and]
      rcases hout with ⟨⟨-, hok⟩, ct, one, -, account⟩ | ⟨hno, idle⟩
      · have works : (⟨false, false⟩ : ContainerCalls).succeed cfg = true := hok
        rw [one, works, if_pos rfl, List.map_singleton, account]
      · have broken : ¬ (⟨false, false⟩ : ContainerCalls).succeed cfg = true :=
          fun hok => hno ⟨rfl, hok⟩
        rw [idle, if_neg broken, List.map_nil]

/-- What the handler does with the session it has chosen. -/
def answerReconnect (cfg : Config) (c : ReconnectCalls) (req : Request) :
    Option ProconsulSession → Run Page
  | none => pure (.authzError "Your request cannot be processed -- either the session you are attempting to reconnect to does not exist or you are not authorized to it.")
  | some s => resume cfg c (reconnectSize req) s req.remoteAddr

/-- Past the gate, the session that is taken decides. -/
theorem resumesRow_iff {cfg : Config} {pw vnc token host : String} {req : Request} {w w₁ : World}
    (gate : (reconnectGate (.noOutage pw vnc) req ⟨some host, none, some token⟩).run w =
      (.ok none, w₁)) (only : OnlyTokens w w₁) (known : req.authUser.uid ≠ none) (r : SessionRow) :
    ResumesRow cfg (.noOutage pw vnc) req ⟨some host, none, some token⟩ w r ↔
      (∃ l, lastOnHost req.authUser w.db host = some l ∧
        javaString l.samaccountname = javaString r.samaccountname) ∧
      allocates .noOutage w = true ∧ (⟨false, false⟩ : ContainerCalls).succeed cfg = true := by
  obtain ⟨psa, hread, read⟩ := run_getAvailableSessions cfg (fun _ => ⟨false, false⟩)
    "2024-01-01 00:00:00" req.authUser w₁
  have rows : ownRows req.authUser w₁.db = ownRows req.authUser w.db := by
    obtain ⟨tokens, rfl⟩ := only
    rfl
  have ports : allocates .noOutage w₁ = allocates .noOutage w := by
    apply allocates_congr
    obtain ⟨tokens, rfl⟩ := only
    rfl
  rw [rows] at read
  have chosen : Option.Rel (ReadAs req.authUser "2024-01-01 00:00:00")
      (lastOnHost req.authUser w.db host) (chooseSession req.authUser (some host) psa) :=
    chooseSession_read known read
  have run : (handleReconnectPost cfg (.noOutage pw vnc) req ⟨some host, none, some token⟩).run w =
      (answerReconnect cfg (.noOutage pw vnc) req
        (chooseSession req.authUser (some host) psa)).run w₁ := by
    rw [handleReconnectPost, Prog.run_bind_ok gate]
    exact Prog.run_bind_ok hread
  rw [ResumesRow]
  cases hlast : lastOnHost req.authUser w.db host with
  | none =>
    rw [hlast] at chosen
    cases hc : chooseSession req.authUser (some host) psa with
    | some s =>
      rw [hc] at chosen
      cases chosen
    | none =>
      have idle : newEffects w w₁ = [] := newEffects_of_same only.trace
      rw [run, hc, answerReconnect, Prog.run_pure, idle]
      simp [started]
  | some l =>
    rw [hlast] at chosen
    cases hc : chooseSession req.authUser (some host) psa with
    | none =>
      rw [hc] at chosen
      cases chosen
    | some s =>
      rw [hc] at chosen
      cases chosen with
      | some hl =>
        obtain ⟨effects, added, accounts⟩ := winusers_resume cfg pw vnc (reconnectSize req) s
          req.remoteAddr w₁
        have account : s.targetUser.sAMAccountName = l.samaccountname := by
          obtain ⟨user, status, named, -, rfl⟩ := hl
          exact named
        rw [only.trace] at added
        rw [run, hc, answerReconnect, newEffects_of_append added, accounts, account, ports]
        by_cases ready : (allocates .noOutage w && (⟨false, false⟩ : ContainerCalls).succeed cfg) = true
        · rw [if_pos ready]
          rw [Bool.and_eq_true] at ready
          simp [ready]
        · rw [if_neg ready]
          rw [Bool.and_eq_true] at ready
          simp only [List.ne_cons_self, false_iff]
          rintro ⟨-, hready⟩
          exact ready hready

/-- A click on the button of a stored session resumes that session exactly
when the last readable session of the user on its host has the same account,
a display number is free and containers can be started. -/
theorem click_resumes_iff (cfg : Config) (uuid pw vnc stype : String) (now : Int)
    (get post : Request) (w w' : World) (view : MainView) (r : SessionRow)
    (rendered : (handleRootRequest cfg (.noOutage uuid now) get).run w = (.ok (.mary view), w'))
    (listed : stype ∈ listedTypes) (mine : r ∈ sessionRows get.authUser stype w.db)
    (user : post.authUser = get.authUser) (session : post.sessionId = get.sessionId)
    (origin : checkOrigin post = true) :
    reconnectForm view.csrfToken (displayed r) ∈ forms view ∧
      (ResumesRow cfg (.noOutage pw vnc) post (reconnectForm view.csrfToken (displayed r)) w' r ↔
        LastOnHost get.authUser w.db r ∧ allocates .noOutage w = true ∧
          (⟨false, false⟩ : ContainerCalls).succeed cfg = true) := by
  refine ⟨form_rendered rendered listed mine, ?_⟩
  obtain ⟨only, -⟩ := handleRootRequest_shows rendered
  have known : get.authUser.uid ≠ none := by
    intro anonymous
    obtain ⟨-, owned⟩ := List.mem_filter.mp mine
    rw [anonymous] at owned
    cases h : r.owner <;> simp [h, sqlEq] at owned
  have same : lastOnHost get.authUser w'.db = lastOnHost get.authUser w.db := by
    obtain ⟨tokens, rfl⟩ := only
    rfl
  have ports : allocates .noOutage w' = allocates .noOutage w := by
    apply allocates_congr
    obtain ⟨tokens, rfl⟩ := only
    rfl
  by_cases named : ∃ host, r.fqdn = some host ∧ host ≠ ""
  · obtain ⟨host, hosted, nonempty⟩ := named
    have form : reconnectForm view.csrfToken (displayed r) =
        ⟨some host, none, some view.csrfToken⟩ := by
      rw [reconnectForm, displayed, hosted]
      rfl
    obtain ⟨w₁, tokens, gate⟩ := passes_reconnectGate pw vnc rendered user session origin nonempty
    rw [form, resumesRow_iff gate tokens (user ▸ known) r, user, same, ports, LastOnHost]
    constructor
    · rintro ⟨last, ready⟩
      exact ⟨⟨host, hosted, nonempty, last⟩, ready⟩
    · rintro ⟨⟨host', hosted', -, last⟩, ready⟩
      obtain rfl : host' = host := Option.some.inj (hosted'.symm.trans hosted)
      exact ⟨last, ready⟩
  · have form : reconnectForm view.csrfToken (displayed r) = ⟨some "", none, some view.csrfToken⟩ := by
      have empty : r.fqdn.getD "" = "" := by
        cases hf : r.fqdn with
        | none => rfl
        | some host =>
          by_contra nonempty
          exact named ⟨host, hf, nonempty⟩
      rw [reconnectForm, displayed, empty]
    have idle : newEffects w' ((handleReconnectPost cfg (.noOutage pw vnc) post
        ⟨some "", none, some view.csrfToken⟩).run w').2 = [] := by
      rw [nameless_form_refused]
      exact newEffects_of_same rfl
    rw [form, ResumesRow, idle, LastOnHost]
    constructor
    · intro resumed
      cases resumed
    · rintro ⟨⟨host, hosted, nonempty, -⟩, -⟩
      exact absurd ⟨host, hosted, nonempty⟩ named

/-- A disconnected session of Pat's on her host. -/
def patRow (type sam : String) : SessionRow where
  fqdn := some "host1.dom.ain"
  owner := some "pat@dom.ain"
  displayname := none
  novncport := some 2
  vncpassword := some "vncsecret"
  connected := false
  samaccountname := some sam
  running := true
  starttime := some "2024-01-01 00:00:00"
  status := some "disconnected"
  type := some type
  delegatedou := none
  delegatedrole := none
  gatewayfqdn := none

/-- Pat has a user session and, opened after it, a Domain Admin session on the same host. -/
def twoSessions : World :=
  { sampleSite with
    db := { sampleSite.db with
      sessions := [patRow "user" "ab3de6fgh-eas", patRow "domain" "zz9yx8wvu-eas"] } }

def twoSessionsView : MainView :=
  let user := displayed (patRow "user" "ab3de6fgh-eas")
  let domain := displayed (patRow "domain" "zz9yx8wvu-eas")
  { entitledView with
    authenticatedUser := ⟨some "pat@dom.ain", [], []⟩
    sessionlist := [user, domain]
    userSessionList := [user]
    domainSessionList := [domain]
    userhosts := ["host1.dom.ain"] }

theorem twoSessions_rendered :
    (handleRootRequest sampleConfig (.noOutage "U1" 0) sampleRequest).run twoSessions =
      (.ok (.mary twoSessionsView), twoSessions) := by
  decide +kernel

/-- The button of her user session brings back the Domain Admin session. -/
theorem user_button_resumes_domain_session :
    reconnectForm "T1" (displayed (patRow "user" "ab3de6fgh-eas")) ∈ forms twoSessionsView ∧
      ¬ ResumesRow sampleConfig (.noOutage "secret2" "vncsecret2") sampleRequest
        (reconnectForm "T1" (displayed (patRow "user" "ab3de6fgh-eas"))) twoSessions
        (patRow "user" "ab3de6fgh-eas") := by
  refine ⟨by decide, ?_⟩
  rw [ResumesRow]
  decide +kernel

/-- The button of the session opened last brings it back. -/
theorem last_button_resumes_its_session :
    ResumesRow sampleConfig (.noOutage "secret2" "vncsecret2") sampleRequest
      (reconnectForm "T1" (displayed (patRow "domain" "zz9yx8wvu-eas"))) twoSessions
      (patRow "domain" "zz9yx8wvu-eas") :=
  (click_resumes_iff sampleConfig "U1" "secret2" "vncsecret2" "domain" 0 sampleRequest sampleRequest
    twoSessions twoSessions twoSessionsView (patRow "domain" "zz9yx8wvu-eas") twoSessions_rendered
    (by decide) (by decide) rfl rfl rfl).2.mpr
    ⟨⟨"host1.dom.ain", rfl, by decide, patRow "domain" "zz9yx8wvu-eas", by decide, rfl⟩,
      by decide +kernel, by decide⟩

end ReconnectForms
