import EventLedger.Library.PercentEncoding
import EventLedger.Schema
import Mathlib.Data.List.TakeWhile

namespace EventLedger.Delivery
open Library PercentEncoding

inductive Method where
  | get
  | post
  deriving DecidableEq

/-- The client of the gateway names the account in the path of its two requests. -/
structure OutgoingRequest where
  method : Method
  url : String

def applyTransaction (accountId : String) : OutgoingRequest :=
  ⟨.post, "/accounts/" ++ accountId ++ "/transactions"⟩

def getBalance (accountId : String) : OutgoingRequest :=
  ⟨.get, "/accounts/" ++ accountId ++ "/balance"⟩

/-- The HTTP client does not escape these characters of a path. -/
structure PathSafe where
  safe : Char → Bool
  unreserved : ∀ c, c.isAlphanum ∨ c = '-' ∨ c = '.' ∨ c = '_' ∨ c = '~' → safe c
  slash : safe '/'

/-- A control character is not printable. -/
def isControl (c : Char) : Bool := decide (c.toNat < 0x20) || decide (c.toNat = 0x7F)

/-- The first question mark or hash sign ends the path of a URL. -/
def urlPath (url : List Char) : List Char := url.takeWhile fun c => decide (c ≠ '?' ∧ c ≠ '#')

/-- A dot segment is dropped, and two dots drop the segment before them as well. -/
def dropDots (output : List (List Char)) (component : List Char) : List (List Char) :=
  if component = ['.'] then output
  else if component = ['.', '.'] then
    if output ≠ [] ∧ output ≠ [[]] then output.dropLast else output
  else output ++ [component]

/-- The HTTP client refuses control characters and drops dot segments, and the pattern of a route also
ends before a last newline. -/
structure UrlRules extends PathSafe where
  refused : Char → Bool
  controls : ∀ c, refused c = isControl c
  normalize : List (List Char) → List (List Char)
  dotSegments : ∀ segments, normalize segments = segments.foldl dropDots []
  atEnd : List Char → Bool
  lastNewline : ∀ rest, atEnd rest = true ↔ rest = [] ∨ rest = ['\n']

theorem UrlRules.refused_eq (rules : UrlRules) : rules.refused = isControl :=
  funext rules.controls

def UrlRules.normalizePath (rules : UrlRules) (path : List Char) : List Char :=
  ['/'].intercalate (rules.normalize (path.splitOn '/'))

/-- The request line carries the quoted path below the root of the base URL. -/
def requestPath (rules : UrlRules) (url : String) : Option (List Char) :=
  if url.toList.any rules.refused then none
  else some (rules.normalizePath
    ('/' :: (quote rules.safe (urlPath url.toList)).dropWhile fun c => decide (c = '/')))

inductive Handler where
  | applyTransaction
  | getBalance
  | getAccount
  deriving DecidableEq

/-- The account id of a route is one segment after the prefix. -/
def matchAccount (rules : UrlRules) (suffix path : List Char) : Option (List Char) :=
  if "/accounts/".toList.isPrefixOf path then
    let rest := path.drop "/accounts/".toList.length
    let accountId := rest.takeWhile fun c => decide (c ≠ '/')
    let tail := rest.dropWhile fun c => decide (c ≠ '/')
    if accountId ≠ [] ∧ suffix.isPrefixOf tail ∧ rules.atEnd (tail.drop suffix.length) then
      some accountId
    else none
  else none

/-- The router takes the first route that matches the method and the path. -/
def dispatch (rules : UrlRules) : Method → List Char → Option (Handler × List Char)
  | .post, path =>
      (matchAccount rules "/transactions".toList path).map fun accountId =>
        (.applyTransaction, accountId)
  | .get, path =>
      ((matchAccount rules "/balance".toList path).map fun accountId =>
        (Handler.getBalance, accountId)).or
        ((matchAccount rules [] path).map fun accountId => (.getAccount, accountId))

/-- The server decodes the path before it routes the request. -/
def routed (rules : UrlRules) (request : OutgoingRequest) : Option (Handler × List Char) :=
  (requestPath rules request.url).bind fun path => dispatch rules request.method (unquote path)

/-- An account id is routable when it is one path segment that the client and the server leave as it
is. -/
structure Routable (accountId : List Char) : Prop where
  segment : ∀ c ∈ accountId, c ≠ '/' ∧ c ≠ '?' ∧ c ≠ '#'
  printable : accountId.any isControl = false
  unescaped : (tokens accountId).all Token.isPlain
  named : accountId ≠ ['.'] ∧ accountId ≠ ['.', '.']

instance (accountId : List Char) : Decidable (Routable accountId) :=
  decidable_of_iff ((accountId.all fun c => decide (c ≠ '/' ∧ c ≠ '?' ∧ c ≠ '#')) ∧
      accountId.any isControl = false ∧ (tokens accountId).all Token.isPlain ∧
        accountId ≠ ['.'] ∧ accountId ≠ ['.', '.'])
    ⟨fun ⟨segment, printable, unescaped, named⟩ =>
        ⟨fun c member => of_decide_eq_true (List.all_eq_true.mp segment c member),
          printable, unescaped, named⟩,
      fun routable =>
        ⟨List.all_eq_true.mpr fun c member => decide_eq_true (routable.segment c member),
          routable.printable, routable.unescaped, routable.named⟩⟩

section Match
variable {rules : UrlRules} {name path accountId : List Char}

/-- The rest of a path ends its route. -/
theorem ends_iff {suffix tail : List Char} :
    (suffix.isPrefixOf tail ∧ rules.atEnd (tail.drop suffix.length)) ↔
      tail = suffix ∨ tail = suffix ++ ['\n'] := by
  rw [List.isPrefixOf_iff_prefix, rules.lastNewline]
  constructor
  · rintro ⟨⟨rest, rfl⟩, ended⟩
    rw [List.drop_left] at ended
    rcases ended with rfl | rfl
    · exact .inl (List.append_nil suffix)
    · exact .inr rfl
  · rintro (rfl | rfl) <;> simp

/-- The first slash ends a segment. -/
theorem segment_append (inside : '/' ∉ accountId) (rest : List Char) :
    (accountId ++ '/' :: rest).takeWhile (fun c => decide (c ≠ '/')) = accountId ∧
      (accountId ++ '/' :: rest).dropWhile (fun c => decide (c ≠ '/')) = '/' :: rest := by
  have kept : ∀ c ∈ accountId, decide (c ≠ '/') = true := by
    intro c member
    simpa using fun same : c = '/' => inside (same ▸ member)
  rw [List.takeWhile_append_of_pos kept, List.dropWhile_append_of_pos kept]
  simp

/-- A route matches its fixed parts around one nonempty segment. -/
theorem matchAccount_eq_some : matchAccount rules ('/' :: name) path = some accountId ↔
    accountId ≠ [] ∧ '/' ∉ accountId ∧
      (path = "/accounts/".toList ++ (accountId ++ '/' :: name) ∨
        path = "/accounts/".toList ++ (accountId ++ '/' :: (name ++ ['\n']))) := by
  constructor
  · intro matched
    unfold matchAccount at matched
    split at matched
    · next starts =>
        obtain ⟨rest, rfl⟩ := List.isPrefixOf_iff_prefix.mp starts
        rw [List.drop_left] at matched
        simp only [ends_iff, Option.ite_none_right_eq_some, Option.some.injEq] at matched
        obtain ⟨⟨nonempty, tail⟩, rfl⟩ := matched
        have whole := rest.takeWhile_append_dropWhile (p := fun c => decide (c ≠ '/'))
        refine ⟨nonempty, fun member => ?_, ?_⟩
        · simpa using List.mem_takeWhile_imp member
        · rcases tail with tail | tail
          · rw [tail] at whole
            exact .inl (by rw [whole])
          · rw [tail] at whole
            exact .inr (by rw [← List.cons_append, whole])
    · cases matched
  · rintro ⟨nonempty, inside, rfl | rfl⟩
    · have split := segment_append inside name
      simp only [matchAccount, ends_iff, List.isPrefixOf_iff_prefix.mpr (List.prefix_append _ _), if_true,
        List.drop_left, split, nonempty, ne_eq, not_false_eq_true, true_or, and_self]
    · have split := segment_append inside (name ++ ['\n'])
      simp only [matchAccount, ends_iff, List.isPrefixOf_iff_prefix.mpr (List.prefix_append _ _), if_true,
        List.drop_left, split, nonempty, ne_eq, not_false_eq_true, List.cons_append, or_true,
        and_self]

/-- A matched path has room for the segment and the fixed parts. -/
theorem matchAccount_length (matched : matchAccount rules ('/' :: name) path = some accountId) :
    "/accounts/".toList.length + accountId.length + 1 + name.length ≤ path.length := by
  obtain ⟨_, _, rfl | rfl⟩ := matchAccount_eq_some.mp matched
  · simp only [List.length_append, List.length_cons]
    omega
  · simp only [List.length_append, List.length_cons]
    omega

end Match

section Normalize
variable {rules : UrlRules} {segment : List Char} {tail : List (List Char)}

/-- The three segments of an account's path. -/
theorem normalizePath_account (inside : '/' ∉ segment)
    (plain : ∀ other ∈ tail, '/' ∉ other ∧ other ≠ ['.'] ∧ other ≠ ['.', '.']) :
    rules.normalizePath (['/'].intercalate ([] :: "accounts".toList :: segment :: tail)) =
      ['/'].intercalate (dropDots [[], "accounts".toList] segment ++ tail) := by
  have kept (output : List (List Char)) : tail.foldl dropDots output = output ++ tail := by
    induction tail generalizing output with
    | nil => simp
    | cons other tail ih =>
        obtain ⟨own, others⟩ := List.forall_mem_cons.mp plain
        rw [List.foldl_cons, ih others, dropDots, if_neg own.2.1, if_neg own.2.2]
        simp
  have segments : ∀ other ∈ [] :: "accounts".toList :: segment :: tail, '/' ∉ other := by
    simp only [List.forall_mem_cons]
    exact ⟨by simp, by decide, inside, fun other member => (plain other member).1⟩
  rw [UrlRules.normalizePath, List.splitOn_intercalate _ segments (by simp), rules.dotSegments]
  rw [List.foldl_cons, List.foldl_cons, List.foldl_cons, kept]
  rfl

/-- A dot segment leaves no room for an account. -/
theorem length_dots (dots : segment = ['.'] ∨ segment = ['.', '.']) {name : List Char}
    (named : tail = [name] ∨ tail = []) :
    (['/'].intercalate (dropDots [[], "accounts".toList] segment ++ tail)).length ≤
      "/accounts/".toList.length + name.length := by
  have dropped : dropDots [[], "accounts".toList] ['.'] = [[], "accounts".toList] := rfl
  have doubled : dropDots [[], "accounts".toList] ['.', '.'] = [[]] := rfl
  rcases dots with rfl | rfl
  · rw [dropped]
    rcases named with rfl | rfl <;> simp [List.intercalate] <;> omega
  · rw [doubled]
    rcases named with rfl | rfl
    · simp only [List.singleton_append, List.intercalate_cons_cons, List.intercalate_singleton,
        List.length_append, List.length_cons, List.length_nil, String.length_toList]
      exact Nat.add_le_add_right (by decide) _
    · simp [List.intercalate]

end Normalize

section Names

/-- A letter or digit has no meaning of its own in a URL. -/
theorem alphanum_apart {c : Char} (letter : c.isAlphanum) :
    c ≠ '/' ∧ c ≠ '?' ∧ c ≠ '#' ∧ c ≠ '%' ∧ c ≠ '.' ∧ isControl c = false := by
  refine ⟨?_, ?_, ?_, ?_, ?_, ?_⟩
  any_goals
    rintro rfl
    revert letter
    decide
  delta Char.isAlphanum Char.isAlpha Char.isUpper Char.isLower Char.isDigit at letter
  simp only [Bool.or_eq_true, Bool.and_eq_true, decide_eq_true_eq,
    UInt32.le_iff_toNat_le] at letter
  have bounds : 'A'.val.toNat = 65 ∧ 'Z'.val.toNat = 90 ∧ 'a'.val.toNat = 97 ∧
      'z'.val.toNat = 122 ∧ '0'.val.toNat = 48 ∧ '9'.val.toNat = 57 := by decide
  simp only [isControl, Bool.or_eq_false_iff, decide_eq_false_iff_not]
  change ¬ c.val.toNat < 0x20 ∧ ¬ c.val.toNat = 0x7F
  omega

/-- Characters other than a percent sign are plain. -/
theorem all_plain_append {first : List Char} (noPercent : '%' ∉ first) (rest : List Char) :
    (tokens (first ++ rest)).all Token.isPlain = (tokens rest).all Token.isPlain := by
  induction first with
  | nil => rfl
  | cons c first ih =>
      simp only [List.mem_cons, not_or] at noPercent
      rw [List.cons_append, tokens_plain (.inl (Ne.symm noPercent.1)), List.all_cons,
        ih noPercent.2]
      rfl

end Names

section Request
variable {rules : UrlRules} {name accountId : List Char} {url : String}
variable (letters : ∀ c ∈ name, c.isAlphanum)
variable (spelled : url.toList = "/accounts/".toList ++ (accountId ++ '/' :: name))

theorem quote_root (rest : List Char) :
    quote rules.safe ("/accounts/".toList ++ rest) =
      "/accounts/".toList ++ quote rules.safe rest := by
  refine quote_prefix (fun c member => ?_) rest
  have root : (c.isAlphanum ∨ c = '/') ∧ c ≠ '%' := by
    have all : "/accounts/".toList.all fun c => decide ((c.isAlphanum ∨ c = '/') ∧ c ≠ '%') := by
      decide
    exact of_decide_eq_true (List.all_eq_true.mp all c member)
  refine ⟨?_, root.2⟩
  rcases root.1 with letter | rfl
  · exact rules.unreserved c (.inl letter)
  · exact rules.slash

/-- Quoting keeps dots. -/
theorem quote_dots (dots : List Char) (only : ∀ c ∈ dots, c = '.') :
    quote rules.safe dots = dots := by
  have kept : ∀ c ∈ dots, rules.safe c ∧ c ≠ '%' := by
    intro c member
    rw [only c member]
    exact ⟨rules.unreserved '.' (by simp), by decide⟩
  have quoted := quote_prefix kept []
  rw [List.append_nil] at quoted
  rw [quoted]
  simp [quote, tokens]

include letters

/-- Quoting changes the segment of the account only. -/
theorem quote_segment (segment : List Char) :
    quote rules.safe (segment ++ '/' :: name) = quote rules.safe segment ++ '/' :: name := by
  have last : ∀ c ∈ '/' :: name, rules.safe c ∧ c ≠ '%' := by
    refine List.forall_mem_cons.mpr ⟨⟨rules.slash, by decide⟩, fun c member => ?_⟩
    exact ⟨rules.unreserved c (.inl (letters c member)),
      (alphanum_apart (letters c member)).2.2.2.1⟩
  have suffix := quote_prefix last []
  rw [List.append_nil] at suffix
  rw [quote_append (by decide), suffix]
  simp [quote, tokens]

/-- The escapes of an account's URL are the escapes of its id. -/
theorem tokens_account :
    (tokens ("/accounts/".toList ++ (accountId ++ '/' :: name))).all Token.isPlain =
      (tokens accountId).all Token.isPlain := by
  have noPercent : '%' ∉ '/' :: name := by
    simp only [List.mem_cons, not_or]
    exact ⟨by decide, fun member => (alphanum_apart (letters _ member)).2.2.2.1 rfl⟩
  have suffix := all_plain_append noPercent []
  rw [List.append_nil] at suffix
  rw [all_plain_append (by decide), tokens_append (by decide), List.all_append, suffix]
  simp [tokens]

theorem urlPath_account :
    urlPath ("/accounts/".toList ++ (accountId ++ '/' :: name)) =
      "/accounts/".toList ++
        (urlPath accountId ++ if urlPath accountId = accountId then '/' :: name else []) := by
  have last : urlPath ('/' :: name) = '/' :: name := by
    refine List.takeWhile_eq_self_iff.mpr (List.forall_mem_cons.mpr ⟨by decide, ?_⟩)
    intro c member
    have apart := alphanum_apart (letters c member)
    exact decide_eq_true ⟨apart.2.1, apart.2.2.1⟩
  have root : ∀ c ∈ "/accounts/".toList, decide (c ≠ '?' ∧ c ≠ '#') = true :=
    List.all_eq_true.mp (by decide)
  unfold urlPath at last ⊢
  rw [List.takeWhile_append_of_pos root]
  by_cases whole : (accountId.takeWhile fun c => decide (c ≠ '?' ∧ c ≠ '#')) = accountId
  · rw [if_pos whole, whole, List.takeWhile_append_of_pos (List.takeWhile_eq_self_iff.mp whole),
      last]
  · rw [if_neg whole, List.append_nil, List.takeWhile_append, if_neg]
    intro same
    exact whole ((List.takeWhile_prefix _).eq_of_length same)

include spelled

/-- A request carries the three segments of the account unless its id cuts the path or is a dot
segment. -/
theorem requestPath_account (inside : '/' ∉ accountId)
    (printable : accountId.any isControl = false) :
    requestPath rules url = some (['/'].intercalate
      (dropDots [[], "accounts".toList] (quote rules.safe (urlPath accountId)) ++
        if urlPath accountId = accountId then [name] else [])) := by
  have noControl : url.toList.any isControl = false := by
    rw [spelled, List.any_append, List.any_append, printable, List.any_cons]
    have named : name.any isControl = false := by
      rw [List.any_eq_false]
      intro c member
      rw [(alphanum_apart (letters c member)).2.2.2.2.2]
      decide
    rw [named]
    decide
  have cut : '/' ∉ quote rules.safe (urlPath accountId) := by
    intro member
    exact inside ((List.takeWhile_prefix _).subset
      (mem_of_mem_quote (by decide) (by decide) member))
  have path : '/' :: ((quote rules.safe (urlPath url.toList)).dropWhile
      fun c => decide (c = '/')) = ['/'].intercalate ([] :: "accounts".toList ::
        quote rules.safe (urlPath accountId) ::
          if urlPath accountId = accountId then [name] else []) := by
    rw [spelled, urlPath_account letters, quote_root]
    split
    · rw [quote_segment letters]
      simp [List.intercalate]
    · rw [List.append_nil]
      simp [List.intercalate]
  have tail : ∀ other ∈ if urlPath accountId = accountId then [name] else [],
      '/' ∉ other ∧ other ≠ ['.'] ∧ other ≠ ['.', '.'] := by
    have noDot : ∀ c ∈ name, c ≠ '.' := fun c member => (alphanum_apart (letters c member)).2.2.2.2.1
    intro other member
    split at member
    · rw [List.mem_singleton.mp member]
      refine ⟨fun slash => (alphanum_apart (letters _ slash)).1 rfl, ?_, ?_⟩
      all_goals
        rintro rfl
        exact noDot '.' List.mem_cons_self rfl
    · cases member
  rw [requestPath, rules.refused_eq, noControl, path, normalizePath_account cut tail]
  rfl

omit letters in
/-- The client sends no id with a control character. -/
theorem printable_of_sent {path : List Char} (sent : requestPath rules url = some path) :
    accountId.any isControl = false := by
  rw [requestPath, rules.refused_eq] at sent
  split at sent
  · cases sent
  · next clear =>
      rw [spelled, List.any_append, List.any_append] at clear
      simp only [Bool.or_eq_true, not_or, Bool.not_eq_true] at clear
      exact clear.2.1

/-- A request whose account the server finds carries its whole URL: the id neither cuts the path
nor is a dot segment. -/
theorem path_of_routes {path : List Char} (sent : requestPath rules url = some path)
    (matched : matchAccount rules ('/' :: name) (unquote path) = some accountId) :
    urlPath accountId = accountId ∧ quote rules.safe accountId ≠ ['.'] ∧
      quote rules.safe accountId ≠ ['.', '.'] ∧
      path = quote rules.safe ("/accounts/".toList ++ (accountId ++ '/' :: name)) := by
  obtain ⟨nonempty, inside, _⟩ := matchAccount_eq_some.mp matched
  rw [requestPath_account letters spelled inside (printable_of_sent spelled sent),
    Option.some.injEq] at sent
  have long := matchAccount_length matched
  have some_id := List.length_pos_iff.mpr nonempty
  have kept : quote rules.safe (urlPath accountId) ≠ ['.'] ∧
      quote rules.safe (urlPath accountId) ≠ ['.', '.'] := by
    rw [← not_or]
    intro dots
    have named : (if urlPath accountId = accountId then [name] else []) = [name] ∨
        (if urlPath accountId = accountId then [name] else []) = [] := by
      split <;> simp
    have short := length_dots dots named
    have shrunk := length_unquote_le path
    rw [← sent] at shrunk long
    omega
  rw [dropDots, if_neg kept.1, if_neg kept.2] at sent
  have whole : urlPath accountId = accountId := by
    by_contra other
    rw [if_neg other, List.append_nil] at sent
    have path : path = quote rules.safe ("/accounts/".toList ++ urlPath accountId) := by
      rw [quote_root, ← sent]
      simp [List.intercalate]
    have short := length_unquote_le ("/accounts/".toList ++ urlPath accountId)
    have cut : (urlPath accountId).length ≤ accountId.length :=
      (List.takeWhile_prefix _).length_le
    rw [path, unquote_quote] at long
    rw [List.length_append] at short
    omega
  rw [if_pos whole, whole] at sent
  rw [whole] at kept
  refine ⟨whole, kept.1, kept.2, ?_⟩
  rw [quote_root, quote_segment letters, ← sent]
  simp [List.intercalate]

/-- The server finds the account of a request only when its id is routable. -/
theorem routable_of_routes
    (routes : ((requestPath rules url).bind fun path =>
      matchAccount rules ('/' :: name) (unquote path)) = some accountId) :
    accountId ≠ [] ∧ Routable accountId := by
  obtain ⟨path, sent, matched⟩ := Option.bind_eq_some_iff.mp routes
  obtain ⟨nonempty, inside, _⟩ := matchAccount_eq_some.mp matched
  obtain ⟨whole, noDot, noDots, path⟩ := path_of_routes letters spelled sent matched
  refine ⟨nonempty, ?_, printable_of_sent spelled sent, ?_, ?_, ?_⟩
  · intro c member
    exact ⟨fun slash => inside (slash ▸ member),
      of_decide_eq_true (List.takeWhile_eq_self_iff.mp whole c member)⟩
  · rw [← tokens_account letters]
    by_contra escaped
    have shorter := (length_tokens ("/accounts/".toList ++ (accountId ++ '/' :: name))).2 <| by
      simpa using escaped
    have decoded := length_unquote ("/accounts/".toList ++ (accountId ++ '/' :: name))
    have long := matchAccount_length matched
    rw [path, unquote_quote] at long
    simp only [List.length_append, List.length_cons] at long shorter decoded
    omega
  · rintro rfl
    exact noDot (quote_dots _ (by simp))
  · rintro rfl
    exact noDots (quote_dots _ (by simp))

/-- The server finds the account of a request with a routable id. -/
theorem routes_of_routable (nonempty : accountId ≠ []) (routable : Routable accountId) :
    ((requestPath rules url).bind fun path => matchAccount rules ('/' :: name) (unquote path)) =
      some accountId := by
  have inside : '/' ∉ accountId := fun member => (routable.segment _ member).1 rfl
  have whole : urlPath accountId = accountId :=
    List.takeWhile_eq_self_iff.mpr fun c member => decide_eq_true (routable.segment c member).2
  have kept : quote rules.safe accountId ≠ ['.'] ∧ quote rules.safe accountId ≠ ['.', '.'] :=
    ⟨fun dot => routable.named.1 (eq_of_quote routable.unescaped (by decide) dot),
      fun dots => routable.named.2 (eq_of_quote routable.unescaped (by decide) dots)⟩
  rw [requestPath_account letters spelled inside routable.printable, whole, if_pos rfl,
    dropDots, if_neg kept.1, if_neg kept.2, Option.bind_some]
  have path : ['/'].intercalate ([[], "accounts".toList] ++ [quote rules.safe accountId] ++
      [name]) = quote rules.safe ("/accounts/".toList ++ (accountId ++ '/' :: name)) := by
    rw [quote_root, quote_segment letters]
    simp [List.intercalate]
  rw [path, unquote_quote, unquote_plain, matchAccount_eq_some]
  · exact ⟨nonempty, inside, .inl rfl⟩
  · rw [tokens_account letters]
    exact routable.unescaped

/-- The server finds the account of a request exactly when its id is routable. -/
theorem routes_account :
    ((requestPath rules url).bind fun path => matchAccount rules ('/' :: name) (unquote path)) =
        some accountId ↔
      accountId ≠ [] ∧ Routable accountId := by
  constructor
  · exact routable_of_routes letters spelled
  · rintro ⟨nonempty, routable⟩
    exact routes_of_routable letters spelled nonempty routable

end Request

/-- The routes of the two requests find the account that their own match finds. -/
theorem dispatch_post {rules : UrlRules} {path accountId : List Char} :
    dispatch rules .post path = some (.applyTransaction, accountId) ↔
      matchAccount rules ('/' :: "transactions".toList) path = some accountId := by
  change (matchAccount rules ('/' :: "transactions".toList) path).map _ = _ ↔ _
  cases matchAccount rules ('/' :: "transactions".toList) path <;> simp

theorem dispatch_get {rules : UrlRules} {path accountId : List Char} :
    dispatch rules .get path = some (.getBalance, accountId) ↔
      matchAccount rules ('/' :: "balance".toList) path = some accountId := by
  change ((matchAccount rules ('/' :: "balance".toList) path).map _).or _ = _ ↔ _
  cases matchAccount rules ('/' :: "balance".toList) path <;> simp

section Accounts
variable (rules : UrlRules) {accountId : String}

theorem routed_applyTransaction :
    routed rules (applyTransaction accountId) = some (.applyTransaction, accountId.toList) ↔
      accountId.toList ≠ [] ∧ Routable accountId.toList := by
  have spelled : (applyTransaction accountId).url.toList =
      "/accounts/".toList ++ (accountId.toList ++ '/' :: "transactions".toList) := by
    rw [applyTransaction, String.toList_append, String.toList_append, List.append_assoc]
    rfl
  have letters : ∀ c ∈ "transactions".toList, c.isAlphanum :=
    List.all_eq_true.mp (by decide)
  rw [← routes_account letters spelled, routed]
  cases requestPath rules (applyTransaction accountId).url with
  | none => simp only [Option.bind_none, reduceCtorEq]
  | some path => exact dispatch_post

theorem routed_getBalance :
    routed rules (getBalance accountId) = some (.getBalance, accountId.toList) ↔
      accountId.toList ≠ [] ∧ Routable accountId.toList := by
  have spelled : (getBalance accountId).url.toList =
      "/accounts/".toList ++ (accountId.toList ++ '/' :: "balance".toList) := by
    rw [getBalance, String.toList_append, String.toList_append, List.append_assoc]
    rfl
  have letters : ∀ c ∈ "balance".toList, c.isAlphanum :=
    List.all_eq_true.mp (by decide)
  rw [← routes_account letters spelled, routed]
  cases requestPath rules (getBalance accountId).url with
  | none => simp only [Option.bind_none, reduceCtorEq]
  | some path => exact dispatch_get

/-- The Account Service finds the account of every transaction and of every balance exactly when its
id is routable. -/
theorem accounts_routed_iff (accepted : identifierLength accountId) :
    (routed rules (applyTransaction accountId) = some (.applyTransaction, accountId.toList) ↔
        Routable accountId.toList) ∧
      (routed rules (getBalance accountId) = some (.getBalance, accountId.toList) ↔
        Routable accountId.toList) := by
  have nonempty : accountId.toList ≠ [] := by
    rw [← List.length_pos_iff, String.length_toList]
    exact accepted.1
  rw [routed_applyTransaction, routed_getBalance, and_iff_right nonempty]
  exact ⟨Iff.rfl, Iff.rfl⟩

end Accounts

/-- The HTTP client escapes these characters only in a query. -/
def UrlRules.printable : UrlRules where
  safe c := decide (c.isAlphanum ∨ c ∈ "-._~!$%&'()*+,/:;=@[]^|\\".toList)
  unreserved c kept := by
    refine decide_eq_true (kept.imp_right fun mark => ?_)
    rcases mark with rfl | rfl | rfl | rfl
    all_goals decide
  slash := by decide
  refused := isControl
  controls _ := rfl
  normalize segments := segments.foldl dropDots []
  dotSegments _ := rfl
  atEnd rest := decide (rest = [] ∨ rest = ['\n'])
  lastNewline _ := decide_eq_true_iff

theorem accounts_routed_letter :
    identifierLength "a" ∧
      routed .printable (applyTransaction "a") = some (.applyTransaction, ['a']) ∧
      routed .printable (getBalance "a") = some (.getBalance, ['a']) := by
  have routes := accounts_routed_iff .printable (show identifierLength "a" by decide)
  exact ⟨by decide, routes.1.mpr (by decide), routes.2.mpr (by decide)⟩

/-- The slash ends the account's segment. -/
theorem accounts_slash_unrouted :
    identifierLength "a/b" ∧
      routed .printable (applyTransaction "a/b") ≠ some (.applyTransaction, "a/b".toList) ∧
      routed .printable (getBalance "a/b") ≠ some (.getBalance, "a/b".toList) := by
  have slash : ¬ Routable "a/b".toList := by decide
  rw [ne_eq, ne_eq, routed_applyTransaction, routed_getBalance]
  exact ⟨by decide, fun routed => slash routed.2, fun routed => slash routed.2⟩

example : ∀ accountId ∈ ["a?b", "a#b", "a%41", "a\nb", "."], identifierLength accountId ∧
    ¬ Routable accountId.toList := by decide

end EventLedger.Delivery
