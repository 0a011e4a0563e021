import EdmxGen.Http.Request
import EdmxGen.Http.Response
import EdmxGen.Text.Basic

/-!
# Requests and responses as bytes

The bytes of a request, and what the bytes of a response mean. The server is asked to end the
connection behind its response, so a response is read when all its bytes are there. Its content is
as long as its headers say: a number of bytes, chunks, or all that arrives.
-/

namespace EdmxGen.Http

open Text

def lineEnd : List Char := ['\r', '\n']

/-- The header that asks the server to end the connection. -/
def lastOfConnection : List Char := "connection: close".toList

/-- A request as it is sent; an empty line ends it. -/
def Request.bytes (r : Request) : List UInt8 :=
  let lines := r.line :: r.headerLines.map String.toList ++ [lastOfConnection, []]
  Utf8.encode (lines.flatMap (· ++ lineEnd))

/-! ## Headers -/

/-- The bytes in front of an empty line, and those behind it. -/
def cutHead? : List UInt8 → Option (List UInt8 × List UInt8)
  | 13 :: 10 :: 13 :: 10 :: rest => some ([], rest)
  | b :: bs => (cutHead? bs).map fun (head, rest) => (b :: head, rest)
  | [] => none

def statusOf? (line : List Char) : Option Nat :=
  match splitAt (· == ' ') line with
  | _ :: status :: _ =>
    if !status.isEmpty && status.all isDigit then some (ofDecimal status) else none
  | _ => none

/-- The name and the value in a line. -/
def headerOf? (line : List Char) : Option (String × String) :=
  (cut? [':'] line).map fun (name, value) =>
    (String.ofList (lowerAscii (trim name)), String.ofList (trim value))

/-- The value of the first header of a name. -/
def valueOf? (headers : List (String × String)) (name : String) : Option String :=
  (headers.find? fun h => h.1 == name).map Prod.snd

/-! ## Content -/

/-- The first line of some bytes, and those behind it. -/
def cutLine : List UInt8 → List UInt8 × List UInt8
  | [] => ([], [])
  | b :: bs =>
    if b = 10 then ([], bs)
    else
      let (line, rest) := cutLine bs
      (b :: line, rest)

theorem cutLine_length_le (bs : List UInt8) : (cutLine bs).2.length ≤ bs.length := by
  induction bs with
  | nil => simp [cutLine]
  | cons b bs ih =>
    simp only [cutLine]
    split
    · simp
    · simpa using Nat.le_succ_of_le ih

def chunkLength? (line : List UInt8) : Option Nat :=
  match (Utf8.decodeLossy line).takeWhile fun c => (hexValue? c).isSome with
  | [] => none
  | digits => some (digits.foldl (fun n c => n * 16 + (hexValue? c).getD 0) 0)

/-- The content of chunks, and whether the last of them arrives. -/
def joinChunks (bs : List UInt8) : List UInt8 × Bool :=
  let rest := (cutLine bs).2
  match chunkLength? (cutLine bs).1 with
  | none => ([], false)
  | some 0 => ([], true)
  | some (n + 1) =>
    if _ : rest.length ≤ n then (rest, false)
    else
      let (more, whole) := joinChunks (rest.drop (n + 3))
      (rest.take (n + 1) ++ more, whole)
termination_by bs.length
decreasing_by
  have := cutLine_length_le bs
  simp only [rest, List.length_drop] at *
  omega

/-- The content among the bytes behind the headers, and whether all of it arrives. -/
def contentOf (headers : List (String × String)) (bs : List UInt8) : List UInt8 × Bool :=
  if valueOf? headers "transfer-encoding" = some "chunked" then joinChunks bs
  else
    match (valueOf? headers "content-length").map fun v => ofDecimal v.toList with
    | some n => (bs.take n, n ≤ bs.length)
    | none => (bs, true)

def Response.ofBytes? (bs : List UInt8) : Option Response := do
  let (head, rest) ← cutHead? bs
  let lines := splitAt (· == '\n') (Utf8.decodeLossy head)
  let status ← statusOf? (← lines.head?)
  let headers := lines.tail.filterMap headerOf?
  let (body, complete) := contentOf headers rest
  pure { status, contentType := valueOf? headers "content-type", chunks := [body], complete }

end EdmxGen.Http
