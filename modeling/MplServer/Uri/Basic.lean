import MplServer.Uri.Percent

/-!
URIs, and how a text is read as one. Scheme and host are put in lower case, the dots of a path are
resolved, and characters that may not stand in a part are encoded.
-/

namespace MplServer

/-- A URI by its parts, each in its written form. -/
structure Uri where
  scheme : String
  /-- What stands between two slashes and the path: a host, with a user and a number around it. -/
  authority : Option String
  host : Option String
  /-- A hierarchical path is absent or begins with a slash. -/
  path : String
  query : Option String
  fragment : Option String
deriving DecidableEq, Repr, Inhabited

namespace Uri

def text (uri : Uri) : String :=
  let start := match uri.authority with
    | some authority => "//" ++ authority
    | none => if uri.path.toList.take 2 = ['/', '/'] then "/." else ""
  let query := match uri.query with
    | some query => "?" ++ query
    | none => ""
  let fragment := match uri.fragment with
    | some fragment => "#" ++ fragment
    | none => ""
  uri.scheme ++ ":" ++ start ++ uri.path ++ query ++ fragment

/-- The schemes of the web, whose URIs must have a host, with the number each of them implies for
it. -/
def impliedNumbers : List (String × Nat) :=
  [("http", 80), ("https", 443), ("ws", 80), ("wss", 443), ("ftp", 21)]

/-- Schemes for which a backslash is a slash. -/
def isSpecial (scheme : String) : Bool :=
  scheme = "file" || (impliedNumbers.lookup scheme).isSome

/-! ## Paths -/

/-- A letter with a colon or a bar, as drives are called. -/
def isDrive (segment : List Char) : Bool :=
  match segment with
  | [letter, mark] => letter.isAlpha && (mark = ':' || mark = '|')
  | _ => false

/-- A segment that stands for the directory itself. -/
def isSingleDot (segment : List Char) : Bool :=
  ["." , "%2e"].contains (String.ofList (segment.map Char.toLower))

/-- A segment that stands for the directory above. -/
def isDoubleDot (segment : List Char) : Bool :=
  ["..", "%2e.", ".%2e", "%2e%2e"].contains (String.ofList (segment.map Char.toLower))

def segmentsOf (special : Bool) (path : List Char) : List (List Char) :=
  path.splitOnP fun c => c = '/' || (special && c = '\\')

/-- One more segment after those that are done. The last segment of a path leaves an empty one when
it is dots. A drive is not left by two dots. -/
def addSegment (file : Bool) (done : List String) (segment : List Char) (last : Bool) :
    List String :=
  let closing := if last then [""] else []
  if isDoubleDot segment then
    match done.getLast? with
    | some above => (if isDrive above.toList then done else done.dropLast) ++ closing
    | none => closing
  else if isSingleDot segment then done ++ closing
  else
    match file && done.isEmpty && isDrive segment, segment with
    | true, letter :: _ => done ++ [String.ofList [letter, ':']]
    | _, _ => done ++ [encode inPath (String.ofList segment)]

def addSegments (file : Bool) (done : List String) : List (List Char) → List String
  | [] => done
  | [segment] => addSegment file done segment true
  | segment :: rest => addSegments file (addSegment file done segment false) rest

/-- The text of segments, each after a slash. A file's path does not begin with empty segments. -/
def joinSegments (file : Bool) (segments : List String) : String :=
  let kept := if file then
      match segments.dropWhile (· = "") with
      | [] => [""]
      | kept => kept
    else segments
  String.join (kept.map ("/" ++ ·))

/-- A hierarchical path, the slash it begins with left out. -/
def readPath (scheme : String) (path : List Char) : String :=
  let file := scheme = "file"
  joinSegments file (addSegments file [] (segmentsOf (isSpecial scheme) path))

/-! ## Hosts -/

/-- Characters that no host may have. -/
def isForbiddenInHost (c : Char) : Bool :=
  c.toNat = 0 || "\t\n\r #/:<>?@[\\]^|".toList.contains c

/-- A number in one of the notations of an address: decimal, octal after a zero, hexadecimal after
`0x`. -/
def addressNumber? (digits : List Char) : Option Nat :=
  let read (base : Nat) (digits : List Char) : Option Nat :=
    digits.foldlM (fun value c => do
      let digit ← (hexByte? (UInt8.ofNat c.toNat)).filter fun d => c.toNat < 128 && d.toNat < base
      return value * base + digit.toNat) 0
  match digits with
  | '0' :: x :: rest => if x = 'x' || x = 'X' then read 16 rest else read 8 (x :: rest)
  | _ => read 10 digits

/-- A host that ends in a number is an address; none if it is not a proper one. -/
def address? (host : String) : Option (Option String) :=
  let labels := host.toList.splitOn '.'
  let labels := if labels.getLast? = some [] && 1 < labels.length then labels.dropLast else labels
  let lastLabel := labels.getLast?.getD []
  let numeric := !lastLabel.isEmpty &&
    (lastLabel.all Char.isDigit ||
      (lastLabel.take 2 = ['0', 'x'] && (addressNumber? lastLabel).isSome))
  if !numeric then none
  else some do
    if 4 < labels.length then none
    let numbers ← labels.mapM fun label => if label.isEmpty then none else addressNumber? label
    let small := numbers.dropLast
    let large := numbers.getLast?.getD 0
    if small.any (255 < ·) || Nat.pow 256 (5 - numbers.length) ≤ large then none
    let value := small.zipIdx.foldl (fun sum (n, i) => sum + n * Nat.pow 256 (3 - i)) large
    return ".".intercalate ([3, 2, 1, 0].map fun i => toString (value / Nat.pow 256 i % 256))

/-- A host of a special scheme: decoded, and in lower case. -/
def specialHost? (host : List Char) : Option String :=
  match host with
  | '[' :: rest =>
      if rest.getLast? = some ']' && rest.dropLast.all fun c =>
          c = ':' || c = '.' || (hexByte? (UInt8.ofNat c.toNat)).isSome then
        some (String.ofList (host.map Char.toLower))
      else none
  | _ =>
      let decoded := (Text.decodeLossy (decodeBytes (Text.encode (String.ofList host)))).toList
      let lower := decoded.map Char.toLower
      if lower.isEmpty || lower.any fun c =>
          isForbiddenInHost c || c = '%' || c.toNat < 0x20 || 0x7F ≤ c.toNat then none
      else
        match address? (String.ofList lower) with
        | some address => address
        | none => some (String.ofList lower)

/-- A host of any other scheme, kept as it is. -/
def opaqueHost? (host : List Char) : Option String :=
  match host with
  | '[' :: _ => specialHost? host
  | _ =>
      if host.any isForbiddenInHost then none
      else some (encode inControls (String.ofList host))

/-! ## Reading -/

/-- The text up to one of the given characters, and the text from there on. -/
def cut (ends : Char → Bool) (text : List Char) : List Char × List Char :=
  text.span fun c => !ends c

/-- The end of an authority, where its path, query or fragment begins. -/
def endsAuthority (special : Bool) (c : Char) : Bool :=
  c = '/' || c = '?' || c = '#' || (special && c = '\\')

/-- The user, the host and the number behind its colon, in their written form, and the host. -/
def readAuthority? (scheme : String) (text : List Char) : Option (String × Option String) := do
  let special := isSpecial scheme
  let (user, place) := match (text.reverse.span (· ≠ '@')) with
    | (place, _ :: user) => (user.reverse, place.reverse)
    | (_, []) => ([], text)
  let (name, password) := user.span (· ≠ ':')
  let name := encode inUser (String.ofList name)
  let password := encode inUser (String.ofList (password.drop 1))
  let login := (if password.isEmpty then name else name ++ ":" ++ password)
  let (host, service) := match place with
    | '[' :: _ =>
        let (inside, rest) := place.span (· ≠ ']')
        (inside ++ rest.take 1, rest.drop 1)
    | _ => place.span (· ≠ ':')
  let service ← match service with
    | [] => some none
    | ':' :: digits =>
        if digits.isEmpty then some none
        else if digits.all Char.isDigit then
          let number := digits.foldl (fun n c => n * 10 + (c.toNat - 48)) 0
          if number < 65536 then some (some number) else none
        else none
    | _ => none
  let service := service.filter fun number => impliedNumbers.lookup scheme ≠ some number
  if host.isEmpty && (special || !login.isEmpty || service.isSome || text.contains '@') then none
  let host ← if special then specialHost? host else opaqueHost? host
  let written := (if login.isEmpty then "" else login ++ "@") ++ host ++
    (match service with
      | some number => ":" ++ toString number
      | none => "")
  return (written, if host.isEmpty then none else some host)

/-- The query and the fragment at the end of a URI. -/
def readEnd (scheme : String) (text : List Char) : Option String × Option String :=
  let (query, behind) := cut (· = '#') text
  let query := match query with
    | '?' :: query => some (encode (inQuery (isSpecial scheme)) (String.ofList query))
    | _ => none
  let fragment := match behind with
    | '#' :: fragment => some (encode inFragment (String.ofList fragment))
    | _ => none
  (query, fragment)

/-- What follows `file:`. The host `localhost` is no host, and a drive is none either. -/
def readFile? (text : List Char) : Option Uri := do
  let slash := fun c => c = '/' || c = '\\'
  let finish := fun (host : Option String) (rest : List Char) =>
    let (path, behind) := cut (fun c => c = '?' || c = '#') rest
    let (query, fragment) := readEnd "file" behind
    let written := readPath "file" (match path with
      | c :: more => if slash c then more else path
      | [] => [])
    let drive := (written.toList.drop 1).take 2
    let host := if isDrive drive && (written.toList.drop 3).head?.all (· = '/') then none else host
    { scheme := "file", authority := some (host.getD ""), host, path := written, query,
      fragment : Uri }
  match text with
  | first :: second :: rest =>
      if slash first && slash second then
        let (host, behind) := cut (endsAuthority true) rest
        if isDrive host then return finish none rest
        else if host.isEmpty then return finish none behind
        else
          let host ← specialHost? host
          return finish (if host = "localhost" then none else some host) behind
      else return finish none text
  | _ => return finish none text

/-- The URI a text stands for. Blanks and controls around it, and line breaks and tabs in it, do not
count. None if it has no scheme, or if its host is at fault. -/
def parse? (text : String) : Option Uri := do
  let outer := fun c : Char => c.toNat ≤ 0x20
  let inner := ((text.toList.dropWhile outer).reverse.dropWhile outer).reverse
  let input := inner.filter fun c => !(c = '\t' || c = '\n' || c = '\r')
  let (name, behind) := input.span (· ≠ ':')
  let schemeChar := fun c : Char => c.isAlphanum || c = '+' || c = '-' || c = '.'
  if behind.isEmpty || !name.all schemeChar || !(name.head?.any Char.isAlpha) then none
  let scheme := String.ofList (name.map Char.toLower)
  let rest := behind.drop 1
  if scheme = "file" then readFile? rest
  else if isSpecial scheme then
    let start := rest.dropWhile fun c => c = '/' || c = '\\'
    let (authority, behind) := cut (endsAuthority true) start
    let (authority, host) ← readAuthority? scheme authority
    let (path, behind) := cut (fun c => c = '?' || c = '#') behind
    let (query, fragment) := readEnd scheme behind
    return { scheme, authority := some authority, host, path := readPath scheme (path.drop 1),
             query, fragment }
  else
    match rest with
    | '/' :: '/' :: more =>
        let (authority, behind) := cut (endsAuthority false) more
        let (authority, host) ← readAuthority? scheme authority
        let (path, behind) := cut (fun c => c = '?' || c = '#') behind
        let (query, fragment) := readEnd scheme behind
        let path := if path.isEmpty then "" else readPath scheme (path.drop 1)
        return { scheme, authority := some authority, host, path, query, fragment }
    | '/' :: more =>
        let (path, behind) := cut (fun c => c = '?' || c = '#') more
        let (query, fragment) := readEnd scheme behind
        return {
          scheme, authority := none, host := none, path := readPath scheme path, query, fragment }
    | _ =>
        let (path, behind) := cut (fun c => c = '?' || c = '#') rest
        let (query, fragment) := readEnd scheme behind
        return { scheme, authority := none, host := none,
                 path := encode inControls (String.ofList path), query, fragment }

end Uri

end MplServer
