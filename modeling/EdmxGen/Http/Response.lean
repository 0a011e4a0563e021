import EdmxGen.Failure
import EdmxGen.Http.Charset

/-!
# Responses with metadata

What a server answers, and what becomes of it: a status other than success, no content, or bytes
that are no text are failures of their own, found in this order. The page of a failure status is
worth a report unless it is empty; one that breaks off counts as empty.
-/

namespace EdmxGen.Http

open Text

/-- A response: its status, the type of its content, the pieces in which bytes arrive, and whether
they are all that was announced. -/
structure Response where
  status : Nat := 200
  contentType : Option String := none
  chunks : List (List UInt8) := []
  complete : Bool := true
  deriving DecidableEq, Repr

/-- What a server does with a request: it cannot be reached, ends without a response, or responds.
-/
inductive Reply
  | refused
  | dropped
  | response (r : Response)
  deriving DecidableEq, Repr

namespace Response

/-- The bytes that arrive. -/
def body (r : Response) : List UInt8 := r.chunks.flatten

def isSuccess (r : Response) : Bool := 200 ≤ r.status && r.status < 300

/-- The status never comes with content. -/
def isBare (r : Response) : Bool := r.status == 204 || r.status == 304

/-- The whole content, if it arrives. -/
def content? (r : Response) : Option (List UInt8) :=
  if r.isBare then some [] else if r.complete then some r.body else none

def page (decoder : PageDecoder) (r : Response) : List Char :=
  match r.content? with
  | some bytes => decoder.text r.contentType bytes
  | none => []

/-- The text of a response to a request for an address. -/
def text (r : Response) (address : String) : Except Failure (List Char) :=
  if !r.isSuccess then .error (.httpStatus address r.status)
  else
    match r.content? with
    | none => .error (.transport address)
    | some [] => .error (.emptyResponse address)
    | some bytes => (Utf8.decode bytes).mapError (.invalidEncoding address)

end Response

/-- The reason that goes with a status. -/
def reason : Nat → String
  | 100 => "Continue"
  | 101 => "Switching Protocols"
  | 102 => "Processing"
  | 103 => "Early Hints"
  | 200 => "OK"
  | 201 => "Created"
  | 202 => "Accepted"
  | 203 => "Non Authoritative Information"
  | 204 => "No Content"
  | 205 => "Reset Content"
  | 206 => "Partial Content"
  | 207 => "Multi-Status"
  | 208 => "Already Reported"
  | 226 => "IM Used"
  | 300 => "Multiple Choices"
  | 301 => "Moved Permanently"
  | 302 => "Found"
  | 303 => "See Other"
  | 304 => "Not Modified"
  | 305 => "Use Proxy"
  | 307 => "Temporary Redirect"
  | 308 => "Permanent Redirect"
  | 400 => "Bad Request"
  | 401 => "Unauthorized"
  | 402 => "Payment Required"
  | 403 => "Forbidden"
  | 404 => "Not Found"
  | 405 => "Method Not Allowed"
  | 406 => "Not Acceptable"
  | 407 => "Proxy Authentication Required"
  | 408 => "Request Timeout"
  | 409 => "Conflict"
  | 410 => "Gone"
  | 411 => "Length Required"
  | 412 => "Precondition Failed"
  | 413 => "Payload Too Large"
  | 414 => "URI Too Long"
  | 415 => "Unsupported Media Type"
  | 416 => "Range Not Satisfiable"
  | 417 => "Expectation Failed"
  | 418 => "I'm a teapot"
  | 421 => "Misdirected Request"
  | 422 => "Unprocessable Entity"
  | 423 => "Locked"
  | 424 => "Failed Dependency"
  | 425 => "Too Early"
  | 426 => "Upgrade Required"
  | 428 => "Precondition Required"
  | 429 => "Too Many Requests"
  | 431 => "Request Header Fields Too Large"
  | 451 => "Unavailable For Legal Reasons"
  | 500 => "Internal Server Error"
  | 501 => "Not Implemented"
  | 502 => "Bad Gateway"
  | 503 => "Service Unavailable"
  | 504 => "Gateway Timeout"
  | 505 => "HTTP Version Not Supported"
  | 506 => "Variant Also Negotiates"
  | 507 => "Insufficient Storage"
  | 508 => "Loop Detected"
  | 510 => "Not Extended"
  | 511 => "Network Authentication Required"
  | _ => "<unknown status code>"

end EdmxGen.Http
