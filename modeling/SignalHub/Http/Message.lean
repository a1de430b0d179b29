import SignalHub.Json.Printer
/-!
# Requests and responses

Results:
* `Target.ofUri`: the path and the query string of a request.
* `Response`: an answer.
* `ApiError.response`: an error as an answer.
-/
namespace SignalHub.Http

/-- A request method. -/
inductive Method where
  | get
  | head
  | post
  | other
  deriving DecidableEq, Repr

/-- What a request asks for: a path and a query string, both as sent. -/
structure Target where
  path : List UInt8
  query : List UInt8
  deriving DecidableEq, Repr

/-- A byte that may stand in the name of a scheme. -/
def isSchemeByte (b : UInt8) : Bool :=
  let c := Char.ofNat b.toNat
  c.isAlphanum || c == '+' || c == '-' || c == '.'

/-- What follows the scheme of a URI, if it has one. -/
def afterScheme? (uri : List UInt8) : Option (List UInt8) :=
  match uri.dropWhile isSchemeByte with
  | 0x3A :: 0x2F :: 0x2F :: rest => some rest
  | _ => none

/-- A path and a query, separated by a question mark. -/
def Target.split (bs : List UInt8) : Target :=
  ⟨bs.takeWhile (· != 0x3F), (bs.dropWhile (· != 0x3F)).drop 1⟩

/-- The target that a URI names; a fragment is cut off. A URI with a scheme names an authority
before the path, which is a slash if nothing is said. One that begins neither with a scheme nor with
a slash names nothing but an authority. -/
def Target.ofUri (uri : String) : Target :=
  let bs := (Text.bytes uri).takeWhile (· != 0x23)
  match bs, afterScheme? bs with
  | 0x2F :: _, _ => .split bs
  | _, some rest =>
    let t := Target.split (rest.dropWhile fun b => b != 0x2F && b != 0x3F)
    if t.path = [] then { t with path := [0x2F] } else t
  | _, none => ⟨[], []⟩

/-- A request. -/
structure Request where
  method : Method
  target : Target
  contentType : Option String
  body : ByteArray

/-- The body of an answer. -/
inductive Body where
  | empty
  | json (j : Json)
  | text (s : String)
  /-- Lines of text. -/
  | lines (ls : List String)
  /-- Events as they come, from the live feed of that number, attached paused or not. -/
  | events (subscriber : Nat) (paused : Bool)

/-- An answer. -/
structure Response where
  status : Nat
  contentType : Option String
  body : Body
  /-- The methods that would be allowed. -/
  allow : Option String

namespace Response

/-- An answer in JSON. -/
def json (status : Nat) (j : Json) : Response := ⟨status, some "application/json", .json j, none⟩

/-- An answer in plain text. -/
def text (status : Nat) (s : String) : Response :=
  ⟨status, some "text/plain; charset=utf-8", .text s, none⟩

/-- No such path. -/
def notFound : Response := ⟨404, none, .empty, none⟩

/-- No such method for the path. -/
def methodNotAllowed (allow : String) : Response := ⟨405, none, .empty, some allow⟩

/-- The answer without its body. -/
def withoutBody (r : Response) : Response := { r with body := .empty }

end Response

/-- Why a request is refused by the hub itself. -/
inductive ApiError where
  | invalidFilter (message : String)
  | badRequest (message : String)
  | notFound (message : String)
  | internal (message : String)
  deriving DecidableEq, Repr

namespace ApiError

/-- The wording of the error. -/
def display : ApiError → String
  | .invalidFilter m => "Invalid filter: " ++ m
  | .badRequest m => "Bad request: " ++ m
  | .notFound m => "Not found: " ++ m
  | .internal m => "Internal error: " ++ m

/-- The name of the kind of error. -/
def kind : ApiError → String
  | .invalidFilter _ => "invalid_filter"
  | .badRequest _ => "bad_request"
  | .notFound _ => "not_found"
  | .internal _ => "internal_error"

/-- The status that goes with the error. -/
def status : ApiError → Nat
  | .invalidFilter _ => 400
  | .badRequest _ => 400
  | .notFound _ => 404
  | .internal _ => 500

/-- The error as an answer. -/
def response (e : ApiError) : Response :=
  .json e.status (.obj [("error", .obj [("message", .str e.display), ("type", .str e.kind)])])

end ApiError

end SignalHub.Http
