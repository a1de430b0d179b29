import SignalHub.Http.Events
/-!
# Requests and answers as lines

A request on one line has a method, a URI and, for a body of JSON, the rest of the line. An answer
has a line with its status and its media type, then its body. An event has a line for its name, one
for its data, one for its id, and an empty one.

Results:
* `Request.ofLine?`: the request on a line.
* `Response.written`, `Event.written`: an answer and an event.
-/
namespace SignalHub.Http

/-- A method by its name. -/
def Method.ofName (name : String) : Method :=
  match name with
  | "GET" => .get
  | "HEAD" => .head
  | "POST" => .post
  | _ => .other

/-- The first word of some characters, and what follows the blank after it. -/
def firstWord (cs : List Char) : String × List Char :=
  (String.ofList (cs.takeWhile (· != ' ')), (cs.dropWhile (· != ' ')).drop 1)

/-- The request on a line, unless the line is empty. -/
def Request.ofLine? (line : String) : Option Request :=
  let (method, rest) := firstWord line.trimAscii.toString.toList
  let (uri, body) := firstWord rest
  if method.isEmpty || uri.isEmpty then none
  else
    some
      { method := .ofName method
        target := .ofUri uri
        contentType := if body.isEmpty then none else some "application/json"
        body := (String.ofList body).toUTF8 }

/-- JSON as text. -/
def jsonText (j : Json) : String := Text.lossy j.render

/-- The text of a body. -/
def Body.written : Body → String
  | .empty => ""
  | .json j => jsonText j
  | .text s => s
  | .lines ls => "\n".intercalate ls
  | .events _ _ => ""

/-- The text of an answer. -/
def Response.written (r : Response) : String :=
  let body := r.body.written
  toString r.status ++ (r.contentType.elim "" (" " ++ ·)) ++
    (r.allow.elim "" (" allow: " ++ ·)) ++ "\n" ++ (if body.isEmpty then "" else body ++ "\n")

/-- The text of an event. -/
def Event.written (e : Event) : String :=
  "event: " ++ e.name ++ "\ndata: " ++ jsonText e.data ++
    (e.id.elim "" ("\nid: " ++ ·)) ++ "\n\n"

end SignalHub.Http
