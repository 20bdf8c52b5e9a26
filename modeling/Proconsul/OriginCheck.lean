import Proconsul.Handlers

/-!
# Whose host the origin check compares

`checkOrigin` cuts the host out of the Origin header, or of the fallback header,
with two regular expressions: everything up to the last double slash is removed,
then everything from the first colon or slash on. The first of them is greedy,
so a double slash in the path moves the place where the host is looked for.

A header value is one line. Letters are compared as `equalsIgnoreCase` of the
model compares them; a request without either header is not considered.
-/

namespace OriginCheck

open Text Handlers

/-! ## Headers -/

def plainChar (c : Char) : Bool := c != ':' && c != '/'

/-- A value `scheme://host[:port][/path]`. -/
structure Header where
  scheme : String
  host : String
  port : Option String
  path : Option String
  scheme_plain : scheme.toList.all plainChar = true
  host_plain : host.toList.all plainChar = true
  port_plain : ∀ p ∈ port, '/' ∉ p.toList
  one_line : ∀ s ∈ [scheme, host] ++ port.toList ++ path.toList, s.toList.any lineEnd = false

namespace Header

variable (h : Header)

/-- What follows the host. -/
def tail : List Char :=
  (match h.port with
    | none => []
    | some port => ':' :: port.toList) ++
  (match h.path with
    | none => []
    | some path => '/' :: path.toList)

def value : String := h.scheme ++ "://" ++ h.host ++ String.ofList h.tail

/-- What follows the scheme, from the second slash on. -/
def rest : List Char := '/' :: (h.host.toList ++ h.tail)

/-- The last place in a text where a double slash begins. -/
def lastSlashes (cs : List Char) : Option (List Char) :=
  (cs.tails.filter (fun t => ['/', '/'].isPrefixOf t)).getLast?

/-- If another double slash follows the one of the scheme: what stands behind the last one, up to
the next colon or slash. -/
def misread : Option String :=
  (lastSlashes h.rest).map (fun t => String.ofList ((t.drop 2).takeWhile plainChar))

end Header

open Header

/-! ## The two replacements -/

theorem lastSlashes_cons (c : Char) (cs : List Char) :
    lastSlashes (c :: cs) = (lastSlashes cs).or
      (if ['/', '/'].isPrefixOf (c :: cs) then some (c :: cs) else none) := by
  rw [lastSlashes, lastSlashes, List.tails_cons, List.filter_cons]
  split
  · rw [List.getLast?_cons]
    cases (cs.tails.filter (fun t => ['/', '/'].isPrefixOf t)).getLast? <;> rfl
  · rw [Option.or_none]

/-- What stands before a double slash does not matter. -/
theorem lastSlashes_append (front : List Char) {cs t : List Char} (found : lastSlashes cs = some t) :
    lastSlashes (front ++ cs) = some t := by
  induction front with
  | nil => exact found
  | cons c front ih => rw [List.cons_append, lastSlashes_cons, ih, Option.some_or]

theorem lastSlashes_value (h : Header) :
    lastSlashes h.value.toList = some ((lastSlashes h.rest).getD ('/' :: h.rest)) := by
  have shape : h.value.toList = (h.scheme.toList ++ [':']) ++ '/' :: h.rest := by
    simp [value, rest]
  have here : lastSlashes ('/' :: h.rest) = some ((lastSlashes h.rest).getD ('/' :: h.rest)) := by
    rw [lastSlashes_cons, rest]
    cases lastSlashes ('/' :: (h.host.toList ++ h.tail)) <;> simp
  rw [shape, lastSlashes_append _ here]

theorem takeWhile_host (h : Header) :
    (h.host.toList ++ h.tail).takeWhile plainChar = h.host.toList := by
  have stop : h.tail.takeWhile plainChar = [] := by
    rw [tail]
    cases h.port with
    | some port => rfl
    | none =>
      cases h.path with
      | some path => rfl
      | none => rfl
  have pass : ∀ c ∈ h.host.toList, plainChar c = true := List.all_eq_true.mp h.host_plain
  rw [List.takeWhile_append_of_pos pass, stop, List.append_nil]

/-- The host is found, unless another double slash follows. -/
theorem originHost_value (h : Header) : originHost h.value = h.misread.getD h.host := by
  have after : afterLastSlashes h.value.toList =
      ((lastSlashes h.rest).getD ('/' :: h.rest)).drop 2 := by
    change ((lastSlashes h.value.toList).map (List.drop 2)).getD h.value.toList = _
    rw [lastSlashes_value h]
    rfl
  have cut : originHost h.value = String.ofList
      ((((lastSlashes h.rest).getD ('/' :: h.rest)).drop 2).takeWhile plainChar) := by
    rw [← after]
    rfl
  rw [cut, misread]
  cases lastSlashes h.rest with
  | some t => rfl
  | none =>
    simp only [Option.getD_none, Option.map_none, rest, List.drop_succ_cons, List.drop_zero]
    rw [takeWhile_host, String.ofList_toList]

/-! ## The check -/

/-- The check is right about a header exactly if no other double slash follows the one of the
scheme, or what stands behind the last one is the server's name exactly if the host is. -/
theorem origin_compared_iff (req : Request) (h : Header)
    (read : req.origin.or req.referrer = some h.value) :
    (checkOrigin req = true ↔ equalsIgnoreCase req.serverName h.host = true) ↔
      ∀ found ∈ h.misread,
        equalsIgnoreCase req.serverName found = equalsIgnoreCase req.serverName h.host := by
  have compared : checkOrigin req =
      equalsIgnoreCase req.serverName (h.misread.getD h.host) := by
    rw [checkOrigin, read, ← originHost_value]
  rw [compared, ← Bool.eq_iff_iff]
  cases h.misread with
  | none => simp
  | some found => simp

/-- A page of the site itself. -/
def ownPage : Header where
  scheme := "https"
  host := "PC.dom.ain"
  port := some "8443"
  path := some "proconsul/reconnect"
  scheme_plain := by decide +kernel
  host_plain := by decide +kernel
  port_plain := by decide +kernel
  one_line := by decide +kernel

/-- A page elsewhere that puts the site's name into its own path. -/
def crossPage : Header where
  scheme := "https"
  host := "evil.example"
  port := none
  path := some "x//pc.dom.ain/"
  scheme_plain := by decide +kernel
  host_plain := by decide +kernel
  port_plain := by decide +kernel
  one_line := by decide +kernel

def sentFrom (h : Header) : Request := { sampleRequest with referrer := some h.value }

theorem own_page_accepted :
    checkOrigin (sentFrom ownPage) = true ↔ equalsIgnoreCase "pc.dom.ain" "PC.dom.ain" = true :=
  (origin_compared_iff (sentFrom ownPage) ownPage rfl).mpr (by decide +kernel)

theorem cross_page_accepted :
    (sentFrom crossPage).origin.or (sentFrom crossPage).referrer = some crossPage.value ∧
      checkOrigin (sentFrom crossPage) = true ∧
      equalsIgnoreCase (sentFrom crossPage).serverName crossPage.host = false := by
  decide +kernel

end OriginCheck
