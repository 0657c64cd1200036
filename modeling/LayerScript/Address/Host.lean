/-
`Address/Host.lean` -- whom an address names.

Behind the schemes of the web a host is a domain name or one of the two kinds of
numeric addresses, and has one usual spelling. Behind any other scheme it is a text
that only its owner understands, and keeps its spelling; but a numeric address in
square brackets is one everywhere.
-/
import LayerScript.Address.Domain
import LayerScript.Address.Ipv6

set_option autoImplicit false

namespace LayerScript.Address

/-- Why a text is not an address. -/
inductive Fault where
  | noScheme
  | emptyHost
  | invalidName
  | invalidCharacter
  | invalidIpv4
  | invalidIpv6
  | invalidPort
deriving DecidableEq, Repr

/-- The text of a fault. -/
def Fault.message : Fault → String
  | .noScheme => "relative URL without a base"
  | .emptyHost => "empty host"
  | .invalidName => "invalid international domain name"
  | .invalidCharacter => "invalid domain character"
  | .invalidIpv4 => "invalid IPv4 address"
  | .invalidIpv6 => "invalid IPv6 address"
  | .invalidPort => "invalid port number"

/-- A host. The empty name is that of no host. -/
inductive Host where
  | name (text : String)
  | ipv4 (address : Nat)
  | ipv6 (groups : List Nat)
deriving DecidableEq, Repr

namespace Host

/-- No host. -/
def nobody : Host := .name ""

/-- The text of a host. -/
def text : Host → String
  | .name text => text
  | .ipv4 address => Ipv4.text address
  | .ipv6 groups => "[" ++ Ipv6.text groups ++ "]"

/-- Reads an address in square brackets, given what stands behind the first of them. -/
def ofBrackets (text : List Char) : Except Fault Host :=
  match text.getLast? with
  | some ']' =>
    match Ipv6.ofText? text.dropLast with
    | some groups => .ok (.ipv6 groups)
    | none => .error .invalidIpv6
  | _ => .error .invalidIpv6

/-- Reads a host of the web. -/
def ofWeb (text : List Char) : Except Fault Host :=
  match text with
  | '[' :: rest => ofBrackets rest
  | _ =>
    match (unescape? text).bind Domain.ofName? with
    | none => .error .invalidName
    | some [] => .error .emptyHost
    | some domain =>
      if Ipv4.endsInNumber domain then
        match Ipv4.ofName? domain with
        | some address => .ok (.ipv4 address)
        | none => .error .invalidIpv4
      else .ok (.name (String.ofList domain))

/-- Whether no host has this character, whoever owns it. -/
def isRefused (c : Char) : Bool :=
  "\x00\t\n\x0d #/:<>?@[\\]^|".toList.contains c

/-- Reads a host of a scheme that is not of the web. -/
def ofOther (text : List Char) : Except Fault Host :=
  match text with
  | '[' :: rest => ofBrackets rest
  | _ =>
    if text.any isRefused then .error .invalidCharacter
    else .ok (.name (String.ofList (escape [] text)))

end Host

end LayerScript.Address
