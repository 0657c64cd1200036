/-
`Address/Basic.lean` -- an address and its text.

An address is kept in its usual spelling, part by part, so two texts that name the
same thing in different spellings are read as one address, and `Address.text`
writes the usual one.
-/
import LayerScript.Address.Host

set_option autoImplicit false

namespace LayerScript

/-! ## 1. Parts -/

/-- The part of an address behind two slashes: who asks, whom, and at which port. A user or
password that is empty is not given, and neither is the usual port of the scheme. -/
structure Address.Authority where
  user : String
  password : String
  host : Address.Host
  port : Option Nat
deriving DecidableEq, Repr

/-- An address. Its path, query and fragment are escaped as they stand in the text. -/
structure Address where
  scheme : String
  authority : Option Address.Authority
  path : String
  query : Option String
  fragment : Option String
deriving DecidableEq, Repr

namespace Address

/-! ## 2. Text -/

/-- The text of what an authority is asked as. -/
def Authority.credentials (a : Authority) : String :=
  if a.user = "" ∧ a.password = "" then ""
  else a.user ++ (if a.password = "" then "" else ":" ++ a.password) ++ "@"

/-- The text of an authority. -/
def Authority.text (a : Authority) : String :=
  a.credentials ++ a.host.text
    ++ match a.port with
      | some port => ":" ++ toString port
      | none => ""

/-- An optional part behind its mark. -/
def marked (mark : String) : Option String → String
  | some part => mark ++ part
  | none => ""

/-- The text of an address. Two slashes that begin a path without an authority would read
as one, so a segment that leads nowhere is put before them. -/
def text (a : Address) : String :=
  a.scheme ++ ":"
    ++ (match a.authority with
      | some authority => "//" ++ authority.text
      | none => if ['/', '/'].isPrefixOf a.path.toList then "/." else "")
    ++ a.path ++ marked "?" a.query ++ marked "#" a.fragment

/-! ## 3. Credentials -/

/-- Whether a part of an authority stands for a text. -/
def isText (part : String) : Bool :=
  (unescape? part.toList).isSome

/-- An authority whose user and password were taken out, to be sent apart from the address.
They are left in place when the user, or a password without a user, is no text. -/
def Authority.withoutCredentials (a : Authority) : Authority :=
  if isText a.user && (a.user != "" || isText a.password) then { a with user := "", password := "" }
  else a

/-- An address whose user and password were taken out. -/
def withoutCredentials (a : Address) : Address :=
  { a with authority := a.authority.map Authority.withoutCredentials }

end Address

end LayerScript
