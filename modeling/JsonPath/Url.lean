/-!
Absolute URLs. Their parts are kept in one written form, so two URLs are equal exactly when
their texts are.
-/

namespace JsonPath

namespace Url

inductive Host where
  | domain (name : String)
  | ipv4 (address : Nat)
  | ipv6 (pieces : List Nat)
deriving DecidableEq

/-- A path that relative references resolve against, or a text that none can change. The
first is empty or begins with a slash. -/
inductive Path where
  | opaqueText (text : String)
  | rooted (text : String)
deriving DecidableEq

/-- Where a resource is: a user, a host and a port. A host with no name is not the absence
of a host, and a port is kept only if it is not the default of the scheme. -/
structure Authority where
  username : String
  password : String
  host : Option Host
  port : Option Nat
deriving DecidableEq

def Authority.none : Authority := ⟨"", "", Option.none, Option.none⟩

end Url

structure Url where
  scheme : String
  authority : Url.Authority
  path : Url.Path
  query : Option String
  fragment : Option String
deriving DecidableEq

namespace Url

def isOpaque (u : Url) : Bool :=
  match u.path with
  | .opaqueText _ => true
  | .rooted _ => false

/-- The text without the spaces at its end. -/
def trimEnd (text : String) : String :=
  String.ofList (text.toList.reverse.dropWhile (· == ' ')).reverse

/-- The URL without its fragment. An opaque path that comes last loses the spaces at its
end, which would not be read back. -/
def withoutFragment (u : Url) : Url :=
  let path := match u.path, u.query with
    | .opaqueText text, none => .opaqueText (trimEnd text)
    | path, _ => path
  { u with path := path, fragment := none }

/-- Schemes with a host and rules of their own, apart from files, and their ports. -/
def defaultPorts : List (String × Nat) :=
  [("http", 80), ("https", 443), ("ws", 80), ("wss", 443), ("ftp", 21)]

/-- The scheme is one with rules of its own. -/
def isSpecial (scheme : String) : Bool :=
  scheme = "file" || (defaultPorts.lookup scheme).isSome

end Url

end JsonPath
