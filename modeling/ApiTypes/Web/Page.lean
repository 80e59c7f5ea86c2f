import ApiTypes.Text.Encoding
import ApiTypes.Web.Address
import ApiTypes.World

/-!
A web client over a table of pages. It follows the rules of addresses and reads a page in the encoding
that its first octets show.
-/

namespace ApiTypes.Web

/-- What a request for a page gives: a status with a body, or no connection. -/
inductive Page where
  | response (status : Int) (body : String)
  | refused (text : String)
  deriving DecidableEq, Repr

/-- The text of a body without the byte order mark before it. A body that begins with zeros is read
anew, in the encoding that they show. -/
def bodyText? (body : String) : Option String :=
  match body.toList with
  | '\ufeff' :: rest => some (String.ofList rest)
  | cs =>
    let octets := cs.flatMap Text.octets
    match Text.WideEncoding.ofStart? octets with
    | none => some body
    | some encoding => (encoding.decode? octets).map String.ofList

/-- Only a status from 200 to 299 is a success. -/
def Page.fetched : Page → Fetched
  | .refused text => .failed (some text)
  | .response status body =>
    if 200 ≤ status ∧ status < 300 then
      match bodyText? body with
      | none => .unreadable
      | some text => .page text
    else .failed none

/-- There is no connection to an address without a page. -/
def fetch (pages : List (String × Page)) (address : String) : Fetched :=
  match addressFault? address with
  | some .invalid => .noAddress
  | some .unreadable => .unreadable
  | none => ((pages.lookup address).getD (.refused "no such host")).fetched

end ApiTypes.Web
