import JsonPath.Url.Host
import JsonPath.Url.Path

/-!
Reading URLs, absolute or relative to a base. Blanks around a URL and line breaks inside it
are left out, and parts are percent-encoded where they have to be.
-/

namespace JsonPath.Url

/-! ### Percent-encoding of the parts -/

def inUser (c : Char) : Bool :=
  inPath c || ['/', ':', ';', '=', '@', '[', '\\', ']', '^', '|'].contains c

def inQuery (special : Bool) (c : Char) : Bool :=
  isControl c || [' ', '"', '#', '<', '>'].contains c || (special && c = '\'')

def encode (encoded : Char → Bool) (s : List Char) : String :=
  String.ofList (Text.percentEncode encoded s)

/-- The URL with a fragment. -/
def withFragment (u : Url) (fragment : List Char) : Url :=
  { u with fragment := some (encode inFragment (unbroken fragment)) }

/-- Adds what follows a path: a query after `?` and a fragment after `#`. -/
def withEnding (u : Url) (s : List Char) : Url :=
  let query := match s with
    | '?' :: rest =>
      some (encode (inQuery (isSpecial u.scheme)) (rest.takeWhile (· != '#')))
    | _ => none
  let u := { u with query := query }
  match s.dropWhile (· != '#') with
  | '#' :: fragment => u.withFragment fragment
  | _ => { u with fragment := none }

/-! ### Paths -/

/-- The URL with the path and the ending in a text, read after the start of a path, and
whether the path stands on a drive. -/
def readPath (u : Url) (start : List Char) (s : List Char) : Url × Bool :=
  let path := s.takeWhile fun c => c != '?' && c != '#'
  let draft := (Draft.start (decide (u.scheme = "file")) start).read (isSpecial u.scheme) path
  ({ u with path := .rooted (String.ofList draft.finish) }.withEnding
    (unbroken (s.drop path.length)), draft.onDrive)

def withPath (u : Url) (start : List Char) (s : List Char) : Url := (u.readPath start s).1

/-- The path and the ending of a URL after its authority. A path may be missing only in a
scheme without rules of its own. -/
def withRootedPath (u : Url) (s : List Char) : Url :=
  let special := isSpecial u.scheme
  match s with
  | c :: rest =>
    if isSlash special c then u.withPath ['/'] rest
    else if (c = '?' || c = '#') && !special then { u with path := .rooted "" }.withEnding s
    else u.withPath ['/'] s
  | [] => if special then u.withPath ['/'] [] else { u with path := .rooted "" }

/-! ### Authorities -/

/-- The user and the password before the last `@` of an authority, and what comes after. -/
def takeUser (authority : List Char) : (String × String) × List Char :=
  if authority.contains '@' then
    let host := (authority.reverse.takeWhile (· != '@')).reverse
    let user := authority.take (authority.length - host.length - 1)
    let name := user.takeWhile (· != ':')
    ((encode inUser name, encode inUser (user.drop (name.length + 1))), host)
  else (("", ""), authority)

/-- The length of the host at the start of a text: up to a colon outside brackets. -/
def hostLength (bracketed : Bool) : List Char → Nat
  | [] => 0
  | c :: rest =>
    if c = ':' && !bracketed then 0
    else hostLength (if c = '[' then true else if c = ']' then false else bracketed) rest + 1

/-- A port of 16 bits; none stands for the default of the scheme. -/
def port? (scheme : String) (digits : List Char) : Option (Option Nat) :=
  let n := Text.decimalValue digits
  if 65535 < n then none
  else if digits.isEmpty || defaultPorts.lookup scheme = some n then some none
  else some (some n)

/-- The authority at the start of a text between two slashes and the next one, and what
comes after it. A backslash after a port belongs to the path in every scheme. -/
def takeAuthority? (scheme : String) (s : List Char) : Option (Authority × List Char) := do
  let ((username, password), rest) := takeUser s
  let special := isSpecial scheme
  let host := rest.take (hostLength false rest)
  let after := rest.drop host.length
  let parsed ← if special then specialHost? host else plainHost? host
  if host.isEmpty && (!after.isEmpty || username != "" || password != "") then none
  else
    let digits := (after.drop 1).takeWhile Text.isDigit
    let left := (after.drop 1).drop digits.length
    if left.isEmpty || left.head? = some '\\' then
      let port ← port? scheme digits
      return (⟨username, password, some parsed, port⟩, left)
    else none

/-- A URL from what follows the two slashes in front of its authority. -/
def ofAuthority? (scheme : String) (s : List Char) : Option Url := do
  let special := isSpecial scheme
  let text := s.takeWhile fun c => !isSlash special c && c != '?' && c != '#'
  if text = ['@'] && text.length < s.length then none
  else
    let (authority, left) ← takeAuthority? scheme text
    return (⟨scheme, authority, .rooted "", none, none⟩ : Url).withRootedPath
      (left ++ s.drop text.length)

/-! ### References -/

/-- The text of a path that relative references resolve against. -/
def pathChars (u : Url) : List Char :=
  match u.path with
  | .rooted text => text.toList
  | .opaqueText _ => []

/-- What both slashes and backslashes count as where a reference begins. -/
def isAnySlash (c : Char) : Bool := c = '/' || c = '\\'

/-- A reference, not to a file, relative to a base whose path is no opaque text. -/
def relative? (base : Url) (s : List Char) : Option Url :=
  match s with
  | [] => some { base with fragment := none }
  | '?' :: _ => some (base.withEnding s)
  | '#' :: fragment => some (base.withFragment fragment)
  | c :: rest =>
    if isAnySlash c then
      let slashes := s.takeWhile isAnySlash
      if 2 ≤ slashes.length then
        ofAuthority? base.scheme
          (if slashes.take 2 = ['/', '/'] then s.drop 2 else s.drop slashes.length)
      else some (base.withPath ['/'] rest)
    else
      let folder := Draft.pop false base.pathChars
      some (base.withPath (if folder.isEmpty then ['/'] else folder) s)

/-- The reference begins with a drive. -/
def startsWithDrive (s : List Char) : Bool :=
  isDrive (s.take 2) &&
    match s.drop 2 with
    | [] => true
    | c :: _ => isAnySlash c || c = '?' || c = '#'

/-- The host of a file; the machine itself needs no name. -/
def fileHost? (s : List Char) : Option (Option Host) :=
  if s.isEmpty then some none
  else
    (specialHost? s).map fun host =>
      if host = .domain "localhost" then none else some host

/-- A file with nothing but a host. -/
def ofHost (host : Option Host) : Url :=
  ⟨"file", { Authority.none with host }, .rooted "", none, none⟩

/-- The URL of a file from what follows the two slashes in front of its host. A drive in the
place of a host belongs to the path, and a path on a drive has no host. -/
def hostedFile? (s : List Char) : Option Url :=
  let host := (unbroken s).takeWhile fun c => !isAnySlash c && c != '?' && c != '#'
  if isDrive host then some ((ofHost none).withPath ['/'] s)
  else do
    let rest := dropUnbroken host.length s
    match ← fileHost? host with
    | none => return (ofHost none).withPath ['/'] rest
    | some name =>
      let path := if ((unbroken rest).head?.map isAnySlash).getD false then
          dropUnbroken 1 rest else rest
      let (u, onDrive) := (ofHost (some name)).readPath ['/'] path
      return if onDrive then { u with authority := .none } else u

/-- The URL of a file whose path begins with the one slash that a text begins with. The path
stays on the drive or the host of the base, unless it has a drive of its own. -/
def rootedFile (base : Option Url) (s : List Char) : Url :=
  let base := if startsWithDrive ((unbroken s).drop 1) then none else base
  match base with
  | some base =>
    let drive := (base.pathChars.drop 1).takeWhile (· != '/')
    if isPlainDrive drive then (ofHost none).withPath ('/' :: drive) s
    else (ofHost base.authority.host).withPath [] s
  | none => (ofHost none).withPath [] s

/-- The URL of a file, or what follows the scheme of one, relative to a base that is a
file if there is one. -/
def file? (base : Option Url) (s : List Char) : Option Url :=
  match unbroken s, base with
  | c :: rest, base =>
    if isAnySlash c then
      match rest with
      | d :: _ => if isAnySlash d then hostedFile? (dropUnbroken 2 s) else some (rootedFile base s)
      | [] => some (rootedFile base s)
    else
      match base with
      | some base =>
        if c = '?' then some (base.withEnding (c :: rest))
        else if c = '#' then some (base.withFragment rest)
        else if startsWithDrive (c :: rest) then some ((ofHost none).withPath ['/'] s)
        else some (base.withPath (Draft.pop true base.pathChars) s)
      | none => some ((ofHost none).withPath ['/'] s)
  | [], some base => some { base with fragment := none }
  | [], none => some ((ofHost none).withPath ['/'] [])

/-- The scheme at the start of a text, in lowercase, and what follows its colon. -/
def takeScheme? (s : List Char) : Option (String × List Char) :=
  let scheme := s.takeWhile fun c =>
    Text.isLetter c || Text.isDigit c || c = '+' || c = '-' || c = '.'
  if !(scheme.head?.map Text.isLetter).getD false then none
  else
    match s.drop scheme.length with
    | ':' :: rest => some (String.ofList (scheme.map Char.toLower), rest)
    | _ => none

/-- What follows a scheme without rules of its own. -/
def plain? (scheme : String) (s : List Char) : Option Url :=
  match s with
  | '/' :: '/' :: rest => ofAuthority? scheme rest
  | '/' :: rest => some ((⟨scheme, .none, .rooted "", none, none⟩ : Url).withPath ['/'] rest)
  | _ =>
    let path := s.takeWhile fun c => c != '?' && c != '#'
    let u : Url := ⟨scheme, .none, .opaqueText (encode isControl path), none, none⟩
    some (u.withEnding (s.drop path.length))

/-- The URL that a text stands for. A scheme with rules of its own that is the base's, with
fewer than two slashes after it, makes a relative reference. -/
def read? (base : Option Url) (text : String) : Option Url :=
  let isBlank (c : Char) : Bool := c.toNat ≤ 0x20
  let trimmed := ((text.toList.dropWhile isBlank).reverse.dropWhile isBlank).reverse
  let s := unbroken trimmed
  let fileBase := base.filter fun b => b.scheme = "file"
  match takeScheme? s with
  | some (scheme, rest) =>
    if scheme = "file" then file? fileBase (dropUnbroken (s.length - rest.length) trimmed)
    else if isSpecial scheme then
      let slashes := rest.takeWhile isAnySlash
      match base.filter fun b => b.scheme = scheme && slashes.length < 2 with
      | some base => relative? base rest
      | none => ofAuthority? scheme (rest.drop slashes.length)
    else plain? scheme rest
  | none =>
    match base with
    | none => none
    | some base =>
      match s with
      | '#' :: fragment => some (base.withFragment fragment)
      | _ =>
        if base.isOpaque then none
        else if base.scheme = "file" then file? (some base) trimmed
        else relative? base s

end JsonPath.Url
