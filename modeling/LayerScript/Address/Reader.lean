/-
`Address/Reader.lean` -- reading an address.

What surrounds an address and the line breaks in it do not count. A scheme stands
first; the fragment is what follows the first number sign, the query what follows
the first question mark before it. What is left is read by the kind of the scheme:
the schemes of the web always name a host and take a backslash for a slash, the
scheme of files may name one, and any other scheme names one behind two slashes,
has a path behind one and a text of its own behind none.
-/
import LayerScript.Address.Basic
import LayerScript.Address.Hierarchy

set_option autoImplicit false

namespace LayerScript.Address

/-! ## 1. Schemes -/

/-- How the addresses of a scheme are read. -/
inductive SchemeKind where
  | web (usualPort : Nat)
  | file
  | other
deriving DecidableEq, Repr

/-- The kind of a scheme. -/
def SchemeKind.ofScheme : String → SchemeKind
  | "http" => .web 80
  | "https" => .web 443
  | "ws" => .web 80
  | "wss" => .web 443
  | "ftp" => .web 21
  | "file" => .file
  | _ => .other

/-- Whether a backslash is as good as a slash. -/
def SchemeKind.takesBackslash (kind : SchemeKind) : Bool :=
  kind != .other

/-- Whether a character separates segments. -/
def SchemeKind.isSeparator (kind : SchemeKind) (c : Char) : Bool :=
  c == '/' || (kind.takesBackslash && c == '\\')

/-- What a query of a scheme escapes. -/
def SchemeKind.querySet (kind : SchemeKind) : EscapeSet :=
  if kind = .other then Address.querySet else hostQuerySet

/-- Whether a character is a space or a control character, which are cut from both ends
of an address. -/
def isPadding (c : Char) : Bool := c.toNat ≤ 0x20

/-- Whether a character is left out wherever it stands in an address. -/
def isBreak (c : Char) : Bool := c == '\t' || c == '\n' || c == '\r'

/-- The characters of a text that count. -/
def significant (text : String) : List Char :=
  let trimmed := ((text.toList.dropWhile isPadding).reverse.dropWhile isPadding).reverse
  trimmed.filter fun c => !isBreak c

/-- Whether a character may stand in a scheme after its first letter. -/
def isSchemePart (c : Char) : Bool :=
  c.isAlphanum || c == '+' || c == '-' || c == '.'

/-- Cuts a scheme, in lower case, from what follows its colon. -/
def cutScheme : List Char → Option (String × List Char)
  | [] => none
  | c :: more =>
    match more.dropWhile isSchemePart with
    | ':' :: rest =>
      if c.isAlpha then
        some (String.ofList ((c :: more.takeWhile isSchemePart).map Char.toLower), rest)
      else none
    | _ => none

/-- Cuts a text at the first mark, if it has one. -/
def cutAt (mark : Char) (text : List Char) : List Char × Option (List Char) :=
  match text.dropWhile (· != mark) with
  | _ :: behind => (text.takeWhile (· != mark), some behind)
  | [] => (text, none)

/-! ## 2. Authorities -/

/-- Cuts a host from what follows it: a colon outside of square brackets or a separator ends
it. -/
def cutHost (kind : SchemeKind) : Bool → List Char → List Char × List Char
  | _, [] => ([], [])
  | inBrackets, c :: rest =>
    if kind.isSeparator c || (c == ':' && !inBrackets) then ([], c :: rest)
    else
      let (host, behind) := cutHost kind (c == '[' || (inBrackets && c != ']')) rest
      (c :: host, behind)

/-- Cuts a port from what follows it. Digits have to reach to a slash, of either kind, or to
the end. -/
def cutPort (text : List Char) : Except Fault (Option Nat × List Char) :=
  let digits := text.takeWhile Char.isDigit
  let rest := text.dropWhile Char.isDigit
  let isEnded := match rest with
    | [] => true
    | c :: _ => c == '/' || c == '\\'
  let port := (Ipv4.ofDigits? 10 digits).getD 0
  if !isEnded || 0xFFFF < port then .error .invalidPort
  else .ok (if digits.isEmpty then none else some port, rest)

/-- Cuts who asks from the host that is asked: the last at sign before the path stands
between them. -/
def cutCredentials (kind : SchemeKind) (text : List Char) : Option (List Char) × List Char :=
  let region := text.takeWhile fun c => !kind.isSeparator c
  let path := text.dropWhile fun c => !kind.isSeparator c
  match region.reverse.dropWhile (· != '@') with
  | [] => (none, text)
  | _ :: before => (some before.reverse, (region.reverse.takeWhile (· != '@')).reverse ++ path)

/-- Reads a host of a scheme. -/
def hostOf (kind : SchemeKind) (text : List Char) : Except Fault Host :=
  match kind with
  | .web _ => if text.isEmpty then .error .emptyHost else Host.ofWeb text
  | .file => Host.ofWeb text
  | .other => Host.ofOther text

/-- Reads an authority, and cuts it from the path. `isLast` says that no query and no fragment
follow the path. Who asks needs somebody to ask; an at sign alone is as good as nothing, but
only at the very end. -/
def cutAuthority (kind : SchemeKind) (isLast : Bool) (text : List Char) :
    Except Fault (Authority × List Char) := do
  let (asking, text) := cutCredentials kind text
  let (user, secret) := cutAt ':' (asking.getD [])
  let user := String.ofList (escape userSet user)
  let password := String.ofList (escape userSet (secret.getD []))
  let (name, rest) := cutHost kind false text
  if asking = some [] ∧ name = [] ∧ ¬(rest = [] ∧ isLast) then throw .emptyHost
  let host ← hostOf kind name
  match rest with
  | ':' :: rest =>
    if host = .nobody then throw .emptyHost
    let (port, rest) ← cutPort rest
    let port := if port.any fun p => kind = .web p then none else port
    return (⟨user, password, host, port⟩, rest)
  | rest =>
    if host = .nobody ∧ (user ≠ "" ∨ password ≠ "") then throw .emptyHost
    return (⟨user, password, host, none⟩, rest)

/-! ## 3. Paths -/

/-- A path without its first separator. -/
def withoutRoot (kind : SchemeKind) : List Char → List Char
  | [] => []
  | c :: rest => if kind.isSeparator c then rest else c :: rest

/-- The segments of a path. -/
def segmentsOf (kind : SchemeKind) (text : List Char) : List (List Char) :=
  Hierarchy.ofText kind.takesBackslash (withoutRoot kind text)

/-- The text of a path that leads from a root. -/
def pathOf (kind : SchemeKind) (text : List Char) : String :=
  String.ofList (Hierarchy.text (segmentsOf kind text))

/-! ## 4. Addresses -/

/-- What stands between the scheme and the query of an address. -/
abbrev Body := Option Authority × String

/-- Reads what follows a scheme of the web. -/
def webBody (kind : SchemeKind) (isLast : Bool) (text : List Char) : Except Fault Body := do
  let (authority, path) ← cutAuthority kind isLast (text.dropWhile kind.isSeparator)
  return (some authority, pathOf kind path)

/-- Reads what follows any other scheme. -/
def otherBody (isLast : Bool) (text : List Char) : Except Fault Body :=
  match text with
  | '/' :: '/' :: rest => do
    let (authority, path) ← cutAuthority .other isLast rest
    return (some authority, if path = [] then "" else pathOf .other path)
  | '/' :: _ => .ok (none, pathOf .other text)
  | _ => .ok (none, String.ofList (escape [] text))

/-- The first segment of a path as that of a file: a drive has a colon. -/
def withDrive : List (List Char) → List (List Char)
  | first :: rest =>
    if Hierarchy.isDrive first then (first.take 1 ++ [':']) :: rest else first :: rest
  | [] => []

/-- Reads the path of a file on a host. A path that begins with a drive is on no host but the
own, and empty segments at the beginning of a path do not count. -/
def filePath (host : Host) (text : List Char) : Body :=
  let segments := withDrive (segmentsOf .file text)
  let isOwn := (segments.head?.map Hierarchy.isDrive).getD false
  let path := '/' :: (Hierarchy.text segments).dropWhile (· == '/')
  (some ⟨"", "", if isOwn then .nobody else host, none⟩, String.ofList path)

/-- Reads what follows the scheme of files. The own host may be named, or a drive stand in
place of a host. -/
def fileBody (text : List Char) : Except Fault Body :=
  match text with
  | a :: b :: rest =>
    if SchemeKind.file.isSeparator a && SchemeKind.file.isSeparator b then
      let name := rest.takeWhile fun c => !SchemeKind.file.isSeparator c
      let path := rest.dropWhile fun c => !SchemeKind.file.isSeparator c
      if Hierarchy.isDrive name then .ok (filePath .nobody rest)
      else if name = [] then .ok (filePath .nobody path)
      else do
        let host ← hostOf .file name
        return filePath (if host = .name "localhost" then .nobody else host) path
    else .ok (filePath .nobody text)
  | _ => .ok (filePath .nobody text)

/-- Reads an address. -/
def ofText (text : String) : Except Fault Address :=
  match cutScheme (significant text) with
  | none => .error .noScheme
  | some (scheme, rest) => do
    let kind := SchemeKind.ofScheme scheme
    let (rest, fragment) := cutAt '#' rest
    let (rest, query) := cutAt '?' rest
    let isLast := query.isNone && fragment.isNone
    let (authority, path) ← match kind with
      | .web _ => webBody kind isLast rest
      | .file => fileBody rest
      | .other => otherBody isLast rest
    return {
      scheme, authority, path
      query := query.map fun q => String.ofList (escape kind.querySet q)
      fragment := fragment.map fun f => String.ofList (escape fragmentSet f) }

end LayerScript.Address
