import Questionnaire.Json.Reader

/-!
# Addresses of requests

A request is addressed by a path, which may stand inside a whole address, be followed by a query and
spell characters by their codes.

## Main Definitions

* `Url.pathOf` - the path inside an address
* `Url.decode` - a path with its coded characters written out
* `Url.route` - the path that an address stands for
* `Url.merge` - a path with doubled slashes written once

## Design Notes

Only codes of ASCII characters are written out.  Other codes are left as they are, because no path
that is served has such a character.
-/

namespace Questionnaire.Url

/-- A character that may stand in the name of a protocol. -/
def inScheme (c : Char) : Bool := c.isAlphanum || c == '+' || c == '-' || c == '.'

/-- An address without the characters that are never part of one. -/
def clean (cs : List Char) : List Char :=
  (cs.dropWhile fun c => c.toNat ≤ 0x20).filter fun c => c != '\t' && c != '\n' && c != '\r'

/-- An address without the name of a protocol before a colon. -/
def withoutScheme (cs : List Char) : List Char :=
  match cs.takeWhile (· != ':'), cs.dropWhile (· != ':') with
  | c :: name, ':' :: rest => if c.isAlpha && name.all inScheme then rest else cs
  | _, _ => cs

/-- A character that ends the name of a host. -/
def endsHost (c : Char) : Bool := c == '/' || c == '?' || c == '#'

/-- An address without the name of a host after two slashes. -/
def withoutHost : List Char → List Char
  | '/' :: '/' :: rest => rest.dropWhile (!endsHost ·)
  | cs => cs

/-- The path inside an address. -/
def pathOf (cs : List Char) : List Char :=
  ((withoutHost (withoutScheme (clean cs))).takeWhile (· != '#')).takeWhile (· != '?')

/-- A path with its coded characters written out. -/
def decode : List Char → List Char
  | '%' :: a :: b :: rest =>
    match Json.Reader.hexDigit? a, Json.Reader.hexDigit? b with
    | some x, some y =>
      if 16 * x + y < 128 then Char.ofNat (16 * x + y) :: decode rest
      else '%' :: a :: b :: decode rest
    | _, _ => '%' :: decode (a :: b :: rest)
  | c :: rest => c :: decode rest
  | [] => []

/-- The path that an address stands for, which begins with one slash unless it is empty.  The path
inside the address is taken for an address once more. -/
def route (address : String) : List Char :=
  match decode (pathOf (pathOf address.toList)) with
  | [] => []
  | cs => '/' :: cs.dropWhile (· == '/')

/-- A path in which every two slashes are written as one, once from left to right. -/
def merge : List Char → List Char
  | '/' :: '/' :: rest => '/' :: merge rest
  | c :: rest => c :: merge rest
  | [] => []

end Questionnaire.Url
