import Proconsul.Text
import Proconsul.LdapConnections

/-!
# Which domain controllers are used

`ADConnections` searches the directory for domain controllers and keeps those
whose `serverReferenceBL` matches a regular expression made of the configured
site, as one comma-separated string of URLs that is split again; without any it
falls back to the list `ldap.dcs`. The expression is tried on the whole
reference, in which the site is only one of the components.

The site name holds no character that is special in an expression. A reference
is one line, as the directory writes it. What a lost connection or an entry
without the attributes does to the search is part of the model; the comparison
with the site is made for entries that have them.
-/

namespace SiteControllers

open Text LdapConnections

/-! ## The constructor -/

structure LdapConfig where
  provider : String
  siteDN : Option String
  dcs : String
  deriving DecidableEq, Repr

/-- The attributes asked for; an entry may lack them. -/
structure SearchResult where
  dnsHostName : Option String
  serverReferenceBL : Option String
  deriving DecidableEq, Repr

/-- `matches(".*=" + site + "[-,].*")` for a site without special characters. -/
def matchesSite (site bl : String) : Bool :=
  !bl.toList.any lineEnd && bl.toList.tails.any (fun t =>
    ('=' :: site.toList ++ ['-']).isPrefixOf t || ('=' :: site.toList ++ [',']).isPrefixOf t)

def controllerUrl (dcfqdn : String) : String := "ldaps://" ++ dcfqdn ++ ":636"

def addUrl (adurls : Option String) (url : String) : Option String :=
  match adurls with
  | none => some url
  | some adurls => some (adurls ++ "," ++ url)

/-- The loop over the results, which are those delivered before the search ended or failed. A null
attribute raises, and what was collected so far is kept. -/
def addDcs (localSite : Option String) : List SearchResult → Option String → Option String
  | [], adurls => adurls
  | sr :: results, adurls =>
    match localSite with
    | none =>
      match sr.dnsHostName, sr.serverReferenceBL with
      | some _, some _ => addDcs localSite results adurls
      | _, _ => adurls
    | some site =>
      match sr.serverReferenceBL, sr.dnsHostName with
      | some bl, some dcfqdn =>
        if matchesSite site bl then addDcs localSite results (addUrl adurls (controllerUrl dcfqdn))
        else addDcs localSite results adurls
      | _, _ => adurls

/-- `connections.add(LDAPAdminConnection.getInstance(target))` for each target. -/
def connect : List String → Cache → List LDAPAdminConnection × Cache
  | [], s => ([], s)
  | target :: targets, s =>
    let added := getInstanceFor target s
    let rest := connect targets added.2
    (added.1 :: rest.1, rest.2)

/-- The search itself goes through the default connection. -/
def adConnections (cfg : LdapConfig) (results : List SearchResult) (s : Cache) :
    List LDAPAdminConnection × Cache :=
  let adurls := (addDcs cfg.siteDN results none).getD cfg.dcs
  connect (javaSplit ',' adurls) (getInstance cfg.provider s).2

/-! ## Controllers and their site -/

/-- A site name that a regular expression takes literally. -/
structure SiteName where
  name : String
  literal : name.toList.all (fun c => !"\\^$.|?*+()[]\x7b\x7d".toList.contains c) = true

/-- An entry whose reference is `CN=<server>,CN=Servers,CN=<site>,CN=Sites,CN=Configuration,...`. -/
structure Controller where
  dnsHostName : String
  server : String
  site : String
  base : String
  one_line : ∀ s ∈ [server, site, base], s.toList.any lineEnd = false

def Controller.reference (c : Controller) : String :=
  "CN=" ++ c.server ++ ",CN=Servers,CN=" ++ c.site ++ ",CN=Sites,CN=Configuration," ++ c.base

def Controller.result (c : Controller) : SearchResult := ⟨some c.dnsHostName, some c.reference⟩

/-- The site itself, or one that begins with its name and a hyphen. -/
def inSite (site : SiteName) (c : Controller) : Bool :=
  c.site == site.name || (site.name.toList ++ ['-']).isPrefixOf c.site.toList

/-- Somewhere in the reference a value begins with the site name and a hyphen or comma. -/
def mentions (site : SiteName) (c : Controller) : Bool := matchesSite site.name c.reference

theorem matchesSite_of_split {site bl : String} (one_line : bl.toList.any lineEnd = false)
    {front back : List Char} {mark : Char} (marked : mark = '-' ∨ mark = ',')
    (split : bl.toList = front ++ ('=' :: site.toList ++ [mark]) ++ back) :
    matchesSite site bl = true := by
  have tail : ('=' :: site.toList ++ [mark]) ++ back ∈ bl.toList.tails := by
    rw [List.mem_tails]
    exact ⟨front, by rw [split, ← List.append_assoc]⟩
  have here : ('=' :: site.toList ++ [mark]).isPrefixOf
      (('=' :: site.toList ++ [mark]) ++ back) = true :=
    List.isPrefixOf_iff_prefix.mpr (List.prefix_append _ _)
  have found : bl.toList.tails.any (fun t => ('=' :: site.toList ++ ['-']).isPrefixOf t ||
      ('=' :: site.toList ++ [',']).isPrefixOf t) = true := by
    refine List.any_eq_true.mpr ⟨_, tail, ?_⟩
    rw [Bool.or_eq_true]
    rcases marked with rfl | rfl
    · exact .inl here
    · exact .inr here
  rw [matchesSite, one_line, found]
  rfl

theorem reference_one_line (c : Controller) : c.reference.toList.any lineEnd = false := by
  have server := c.one_line c.server (by simp)
  have site := c.one_line c.site (by simp)
  have base := c.one_line c.base (by simp)
  have servers : ",CN=Servers,CN=".toList.any lineEnd = false := by decide +kernel
  have sites : ",CN=Sites,CN=Configuration,".toList.any lineEnd = false := by decide +kernel
  have cn : "CN=".toList.any lineEnd = false := by decide +kernel
  rw [Controller.reference]
  simp only [String.toList_append, List.any_append, server, site, base, servers, sites,
    cn, Bool.or_self]

theorem mentions_of_inSite {site : SiteName} {c : Controller} (inside : inSite site c = true) :
    mentions site c = true := by
  have servers : ",CN=Servers,CN=".toList = ",CN=Servers,CN".toList ++ ['='] := by decide +kernel
  have sites : ",CN=Sites,CN=Configuration,".toList = ',' :: "CN=Sites,CN=Configuration,".toList := by
    decide +kernel
  have shape : c.reference.toList = ("CN=".toList ++ c.server.toList ++ ",CN=Servers,CN".toList) ++
      ('=' :: c.site.toList ++ [',']) ++ ("CN=Sites,CN=Configuration,".toList ++ c.base.toList) := by
    rw [Controller.reference]
    simp only [String.toList_append, servers, sites]
    simp
  rw [inSite, Bool.or_eq_true, beq_iff_eq] at inside
  rcases inside with same | below
  · rw [same] at shape
    exact matchesSite_of_split (reference_one_line c) (.inr rfl) shape
  · obtain ⟨more, hmore⟩ := List.isPrefixOf_iff_prefix.mp below
    have deeper : c.reference.toList = ("CN=".toList ++ c.server.toList ++ ",CN=Servers,CN".toList) ++
        ('=' :: site.name.toList ++ ['-']) ++
        (more ++ ',' :: ("CN=Sites,CN=Configuration,".toList ++ c.base.toList)) := by
      rw [shape, ← hmore]
      simp
    exact matchesSite_of_split (reference_one_line c) (.inl rfl) deeper

/-! ## The string of URLs -/

def Controller.url (c : Controller) : String := controllerUrl c.dnsHostName

theorem foldl_addUrl (urls : List String) (first : String) :
    urls.foldl addUrl (some first) = some (String.intercalate "," (first :: urls)) := by
  induction urls generalizing first with
  | nil => simp
  | cons url urls ih =>
    rw [List.foldl_cons, addUrl, ih, String.intercalate_cons_append, String.intercalate_cons_cons]

theorem addDcs_results (site : SiteName) (controllers : List Controller) (adurls : Option String) :
    addDcs (some site.name) (controllers.map Controller.result) adurls =
      ((controllers.filter (mentions site)).map Controller.url).foldl addUrl adurls := by
  induction controllers generalizing adurls with
  | nil => rfl
  | cons c controllers ih =>
    rw [List.map_cons, addDcs, Controller.result]
    dsimp only
    rw [ih, ih, List.filter_cons]
    change (if mentions site c = true then _ else _) = _
    by_cases mentioned : mentions site c = true
    · rw [if_pos mentioned, if_pos mentioned]
      rfl
    · rw [if_neg mentioned, if_neg mentioned]

/-- The pieces of a text between its commas. -/
def pieces (s : String) : List String := (s.toList.splitOn ',').map String.ofList

theorem pieces_ne_nil (s : String) : pieces s ≠ [] := by
  simp [pieces, List.splitOn_ne_nil]

theorem pieces_plain {s : String} (plain : ',' ∉ s.toList) : pieces s = [s] := by
  simp [pieces, List.splitOn_eq_singleton plain]

theorem plain_of_length_pieces {s : String} (one : (pieces s).length = 1) : ',' ∉ s.toList := by
  intro comma
  obtain ⟨front, back, split⟩ := List.append_of_mem comma
  have first := List.length_pos_iff.mpr (List.splitOn_ne_nil ',' front)
  have second := List.length_pos_iff.mpr (List.splitOn_ne_nil ',' back)
  rw [pieces, List.length_map, split, List.splitOn_append_cons_self, List.length_append] at one
  omega

theorem pieces_intercalate (urls : List String) (first : String) :
    pieces (String.intercalate "," (first :: urls)) = (first :: urls).flatMap pieces := by
  induction urls generalizing first with
  | nil => simp
  | cons url urls ih =>
    have shape : (String.intercalate "," (first :: url :: urls)).toList =
        first.toList ++ ',' :: (String.intercalate "," (url :: urls)).toList := by
      rw [String.intercalate_cons_cons]
      simp
    rw [List.flatMap_cons, ← ih, pieces, shape, List.splitOn_append_cons_self, List.map_append]
    rfl

/-- A text that ends in something other than a comma has no empty piece at its end. -/
theorem getLast_splitOn (front : List Char) {back : List Char} (visible : back ≠ [])
    (plain : ',' ∉ back) : ∀ p ∈ ((front ++ back).splitOn ',').getLast?, p ≠ [] := by
  induction front with
  | nil =>
    rw [List.nil_append, List.splitOn_eq_singleton plain]
    simpa using visible
  | cons c front ih =>
    intro p hp
    rw [List.cons_append, List.splitOn_cons_eq_if_modifyHead] at hp
    split at hp
    · rw [List.getLast?_cons_of_ne_nil (List.splitOn_ne_nil _ _)] at hp
      exact ih p hp
    · cases rest : (front ++ back).splitOn ',' with
      | nil => exact absurd rest (List.splitOn_ne_nil _ _)
      | cons q qs =>
        rw [rest] at hp ih
        cases qs with
        | nil =>
          simp only [List.modifyHead_cons, List.getLast?_singleton, Option.mem_def,
            Option.some.injEq] at hp
          rw [← hp]
          simp
        | cons q' qs =>
          simp only [List.modifyHead_cons, List.getLast?_cons_cons] at hp ih
          exact ih p hp

theorem javaSplit_eq_pieces {s : String}
    (visible : ∀ p ∈ (s.toList.splitOn ',').getLast?, p ≠ []) : javaSplit ',' s = pieces s := by
  rw [javaSplit, pieces]
  by_cases comma : containsChar s ',' = true
  · rw [if_pos comma]
    cases reversed : (s.toList.splitOn ',').reverse with
    | nil => exact absurd (List.reverse_eq_nil_iff.mp reversed) (List.splitOn_ne_nil _ _)
    | cons p ps =>
      have last : (s.toList.splitOn ',').getLast? = some p := by
        rw [← List.head?_reverse, reversed]
        rfl
      have shown : ¬ p.isEmpty = true := by simpa using visible p last
      rw [List.dropWhile_cons_of_neg shown, ← reversed, List.reverse_reverse]
  · have plain : ',' ∉ s.toList := fun mem => comma (List.contains_iff_mem.mpr mem)
    rw [if_neg comma, List.splitOn_eq_singleton plain]
    simp

theorem javaSplit_urls (controllers : List Controller) (first : Controller) :
    javaSplit ',' (String.intercalate "," ((first :: controllers).map Controller.url)) =
      ((first :: controllers).map Controller.url).flatMap pieces := by
  rw [List.map_cons, ← pieces_intercalate]
  apply javaSplit_eq_pieces
  have ends : ∀ (cs : List Controller) (c : Controller), ∃ front,
      (String.intercalate "," (c.url :: cs.map Controller.url)).toList = front ++ ":636".toList := by
    intro cs
    induction cs with
    | nil =>
      intro c
      exact ⟨("ldaps://" ++ c.dnsHostName).toList, by
        simp [Controller.url, controllerUrl]⟩
    | cons d cs ih =>
      intro c
      obtain ⟨front, shape⟩ := ih d
      refine ⟨(c.url ++ ",").toList ++ front, ?_⟩
      rw [List.map_cons, String.intercalate_cons_cons, String.toList_append, shape,
        List.append_assoc]
  obtain ⟨front, shape⟩ := ends controllers first
  rw [shape]
  exact getLast_splitOn front (by decide +kernel) (by decide +kernel)

theorem length_le_pieces (urls : List String) : urls.length ≤ (urls.flatMap pieces).length := by
  induction urls with
  | nil => simp
  | cons url urls ih =>
    have some_piece := List.length_pos_iff.mpr (pieces_ne_nil url)
    rw [List.flatMap_cons, List.length_append, List.length_cons]
    omega

theorem plain_of_few_pieces {urls : List String} (few : (urls.flatMap pieces).length ≤ urls.length) :
    ∀ url ∈ urls, ',' ∉ url.toList := by
  induction urls with
  | nil => simp
  | cons url urls ih =>
    have some_piece := List.length_pos_iff.mpr (pieces_ne_nil url)
    have others := length_le_pieces urls
    rw [List.flatMap_cons, List.length_append, List.length_cons] at few
    intro u hu
    rcases List.mem_cons.mp hu with rfl | later
    · exact plain_of_length_pieces (by omega)
    · exact ih (by omega) u later

theorem flatMap_pieces_plain {urls : List String} (plain : ∀ url ∈ urls, ',' ∉ url.toList) :
    urls.flatMap pieces = urls := by
  induction urls with
  | nil => rfl
  | cons url urls ih =>
    rw [List.flatMap_cons, pieces_plain (plain url List.mem_cons_self),
      ih (fun u hu => plain u (List.mem_cons_of_mem url hu))]
    rfl

theorem url_plain_iff (c : Controller) : ',' ∉ c.url.toList ↔ ',' ∉ c.dnsHostName.toList := by
  have scheme : ',' ∉ "ldaps://".toList := by decide +kernel
  have port : ',' ∉ ":636".toList := by decide +kernel
  rw [Controller.url, controllerUrl, String.toList_append, String.toList_append, List.mem_append,
    List.mem_append]
  simp only [scheme, port, false_or, or_false]

/-! ## The connections -/

theorem connect_urls {s : Cache} (sound : Sound s) (targets : List String) :
    (connect targets s).1.map LDAPAdminConnection.providerUrl = targets := by
  induction targets generalizing s with
  | nil => rfl
  | cons target targets ih =>
    obtain ⟨here, url⟩ := answered_targeted target sound
    rw [connect]
    dsimp only
    rw [List.map_cons, url, ih here.sound]

/-- The controllers of the site are used, in the order of the search, and the list of the
configuration exactly when there is none. -/
def UsesSite (cfg : LdapConfig) (site : SiteName) (controllers : List Controller) (s : Cache) : Prop :=
  (addDcs cfg.siteDN (controllers.map Controller.result) none = none ↔
      ∀ c ∈ controllers, inSite site c = false) ∧
    (adConnections cfg (controllers.map Controller.result) s).1.map LDAPAdminConnection.providerUrl =
      if controllers.any (inSite site) then (controllers.filter (inSite site)).map Controller.url
      else javaSplit ',' cfg.dcs

theorem filter_inSite (site : SiteName) (controllers : List Controller) :
    (controllers.filter (mentions site)).filter (inSite site) = controllers.filter (inSite site) := by
  rw [List.filter_filter]
  apply List.filter_congr
  intro c _
  cases inside : inSite site c with
  | false => rfl
  | true => exact mentions_of_inSite inside

/-- The URLs come back as those of the site exactly if nobody else is mentioned and no host name
falls apart. -/
theorem pieces_eq_site_iff (site : SiteName) (controllers : List Controller) :
    ((controllers.filter (mentions site)).map Controller.url).flatMap pieces =
        (controllers.filter (inSite site)).map Controller.url ↔
      ∀ c ∈ controllers, mentions site c = true →
        inSite site c = true ∧ ',' ∉ c.dnsHostName.toList := by
  have sub : (controllers.filter (inSite site)).Sublist (controllers.filter (mentions site)) := by
    rw [← filter_inSite]
    exact List.filter_sublist
  constructor
  · intro same
    have shorter := sub.length_le
    have count := congrArg List.length same
    have more := length_le_pieces ((controllers.filter (mentions site)).map Controller.url)
    rw [List.length_map] at count more
    have all := sub.eq_of_length (by omega)
    have few : (((controllers.filter (mentions site)).map Controller.url).flatMap pieces).length ≤
        ((controllers.filter (mentions site)).map Controller.url).length := by
      rw [List.length_map]
      omega
    have plain := plain_of_few_pieces few
    intro c hc mentioned
    have mem : c ∈ controllers.filter (mentions site) := List.mem_filter.mpr ⟨hc, mentioned⟩
    constructor
    · rw [← all] at mem
      exact (List.mem_filter.mp mem).2
    · exact (url_plain_iff c).mp (plain c.url (List.mem_map_of_mem mem))
  · intro clean
    have same : controllers.filter (mentions site) = controllers.filter (inSite site) := by
      apply List.filter_congr
      intro c hc
      rw [Bool.eq_iff_iff]
      exact ⟨fun mentioned => (clean c hc mentioned).1, mentions_of_inSite⟩
    rw [same]
    apply flatMap_pieces_plain
    intro url hurl
    obtain ⟨c, hc, rfl⟩ := List.mem_map.mp hurl
    obtain ⟨mem, inside⟩ := List.mem_filter.mp hc
    exact (url_plain_iff c).mpr (clean c mem (mentions_of_inSite inside)).2

/-- From any state of the connection cache: the constructor uses the site exactly if every reference
that mentions the site's name belongs to it, to a controller whose host name has no comma. -/
theorem uses_site_iff (provider dcs : String) (site : SiteName) (controllers : List Controller)
    (history : List Call) :
    UsesSite ⟨provider, some site.name, dcs⟩ site controllers (after provider .initial history) ↔
      ∀ c ∈ controllers, mentions site c = true →
        inSite site c = true ∧ ',' ∉ c.dnsHostName.toList := by
  have sound := (answered_default provider (sound_after provider sound_initial history)).sound
  rw [UsesSite, adConnections]
  dsimp only
  rw [connect_urls sound, addDcs_results]
  cases mentioned : controllers.filter (mentions site) with
  | nil =>
    have unmentioned : ∀ c ∈ controllers, ¬ mentions site c = true :=
      List.filter_eq_nil_iff.mp mentioned
    have outside : ∀ c ∈ controllers, inSite site c = false := by
      intro c hc
      exact Bool.eq_false_iff.mpr (fun inside => unmentioned c hc (mentions_of_inSite inside))
    have nobody : controllers.any (inSite site) = false :=
      List.any_eq_false.mpr (fun c hc => by simp [outside c hc])
    refine iff_of_true ⟨iff_of_true rfl outside, ?_⟩ ?_
    · rw [nobody]
      rfl
    · exact fun c hc shown => absurd shown (unmentioned c hc)
  | cons first others =>
    have joined : ((first :: others).map Controller.url).foldl addUrl none =
        some (String.intercalate "," ((first :: others).map Controller.url)) :=
      foldl_addUrl (others.map Controller.url) first.url
    rw [joined, Option.getD_some, javaSplit_urls, ← mentioned, ← pieces_eq_site_iff]
    cases somebody : controllers.any (inSite site) with
    | true =>
      have used : ¬ ∀ c ∈ controllers, inSite site c = false := by
        intro outside
        obtain ⟨c, hc, inside⟩ := List.any_eq_true.mp somebody
        rw [outside c hc] at inside
        cases inside
      rw [if_pos rfl]
      exact and_iff_right (iff_of_false (by simp) used)
    | false =>
      have outside : ∀ c ∈ controllers, inSite site c = false := by
        intro c hc
        exact Bool.eq_false_iff.mpr (List.any_eq_false.mp somebody c hc)
      refine iff_of_false ?_ ?_
      · rintro ⟨fallback, -⟩
        cases fallback.mpr outside
      · intro same
        have listed : first ∈ controllers.filter (mentions site) := by
          rw [mentioned]
          exact List.mem_cons_self
        obtain ⟨mem, shown⟩ := List.mem_filter.mp listed
        have inside := ((pieces_eq_site_iff site controllers).mp same first mem shown).1
        rw [outside first mem] at inside
        cases inside

def rdu : SiteName := ⟨"RDU", by decide +kernel⟩

def atRdu : Controller :=
  ⟨"dc1.dom.ain", "dc1", "RDU-WEST", "DC=dom,DC=ain", by decide +kernel⟩

/-- Its machine is named after the site, but it stands in another. -/
def atAtl : Controller :=
  ⟨"dc2.dom.ain", "RDU-dc2", "ATL", "DC=dom,DC=ain", by decide +kernel⟩

theorem foreign_controller_used :
    (adConnections ⟨"ldaps://dom.ain:636", some rdu.name, "ldaps://dc9.dom.ain:636"⟩
        ([atRdu, atAtl].map Controller.result) .initial).1.map LDAPAdminConnection.providerUrl =
      ["ldaps://dc1.dom.ain:636", "ldaps://dc2.dom.ain:636"] ∧
    inSite rdu atRdu = true ∧ inSite rdu atAtl = false ∧
    ¬ UsesSite ⟨"ldaps://dom.ain:636", some rdu.name, "ldaps://dc9.dom.ain:636"⟩ rdu [atRdu, atAtl]
        .initial := by
  refine ⟨by decide +kernel, by decide +kernel, by decide +kernel, ?_⟩
  rintro ⟨-, urls⟩
  exact absurd urls (by decide +kernel)

end SiteControllers
