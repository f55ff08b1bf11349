import Arclain.CacheKeys

namespace Arclain.Streaming

/-!
# Responses to streaming requests

What a server answers to a streaming request, and what its headers say.  An exchange either
gives no response, or one whose body comes in chunks and may break off.
-/

open Text TextFormat Cache

abbrev Bytes := List UInt8

/-- `HeaderValue::to_str`: only visible ASCII, spaces and tabs are text. -/
def headerText (value : Bytes) : Option Str :=
  if value.all fun byte => (32 ≤ byte && byte < 127) || byte = 9 then
    some (value.map fun byte => Char.ofNat byte.toNat)
  else none

/-- The final URL, status and headers, the chunks of the body, and what broke it off. -/
structure Response where
  url : Str
  status : Nat
  statusText : Str
  contentRange : Option Bytes := none
  contentLength : Option Bytes := none
  etag : Option Bytes := none
  lastModified : Option Bytes := none
  chunks : List Bytes
  broken : Option Str := none

inductive Exchange where
  | failed (message : Str)
  | answered (response : Response)

structure StreamingResponseMetadata where
  validatedUrl : Str
  wasPartial : Bool
  etag : Option Str
  lastModified : Option Str
  rangeStart : Option Nat
  totalSize : Option Nat
  expectedBodyLength : Option Nat

structure StreamingDownload where
  bytesWritten : Nat
  wasPartial : Bool
  etag : Option Str
  lastModified : Option Str
  totalSize : Option Nat

/-- `ContentRange`; its `end` is the last position. -/
structure ContentRange where
  start : Nat
  last : Nat
  total : Nat
  deriving DecidableEq

/-- `parse_decimal` of `parse_content_range`. -/
def parseDecimal (value : Str) : Option Nat := (parseDigits value).filter (· < 2 ^ 64)

def parseContentRange (header : Str) : Option ContentRange := do
  let value ← Format.readLiteral "bytes ".toList header
  let (bounds, total) ← splitOnce '/' value
  let (start, last) ← splitOnce '-' bounds
  let start ← parseDecimal start
  let last ← parseDecimal last
  let total ← parseDecimal total
  if start ≤ last ∧ last < total then some { start := start, last := last, total := total }
  else none

def ContentRange.declaredLength (range : ContentRange) : Nat := range.last - range.start + 1

namespace Response

/-- The error of a `Content-Length` that is no number. -/
def invalidContentLength : Str := "206 response has an invalid Content-Length header".toList

section

variable (response : Response)

/-- The `Content-Length` of a partial response agrees with its range. -/
def checkContentLength (range : ContentRange) : Except Str Unit :=
  match response.contentLength with
  | none => .ok ()
  | some header =>
    match (headerText header).bind parseUsize with
    | none => .error invalidContentLength
    | some contentLength =>
      if contentLength ≠ range.declaredLength then
        .error ("206 Content-Length ".toList ++ decimal contentLength ++
          " does not match declared range length ".toList ++ decimal range.declaredLength)
      else .ok ()

def checkContentRange (requestedStart : Option Nat) : Except Str ContentRange :=
  match requestedStart with
  | none => .error "Server returned 206 Partial Content without a Range request".toList
  | some requestedStart =>
    match response.contentRange with
    | none => .error "206 response is missing Content-Range".toList
    | some value =>
      match headerText value with
      | none => .error "206 response has an invalid Content-Range header".toList
      | some header =>
        match parseContentRange header with
        | none => .error ("206 response has an invalid Content-Range: ".toList ++ header)
        | some range =>
          if range.start ≠ requestedStart then
            .error ("206 response starts at byte ".toList ++
              decimal range.start ++ ", but byte ".toList ++
              decimal requestedStart ++ " was requested".toList)
          else (response.checkContentLength range).map fun _ => range

def checkStatus : Except Str Bool :=
  if response.status < 200 ∨ 300 ≤ response.status then
    .error ("HTTP error: ".toList ++ response.statusText)
  else if response.status = 200 then .ok false
  else if response.status = 206 then .ok true
  else .error ("Unsupported streaming response status: ".toList ++ response.statusText)

def acceptedRange (requestedStart : Option Nat) : Except Str (Option ContentRange) := do
  if ← response.checkStatus then
    let range ← response.checkContentRange requestedStart
    pure (some range)
  else pure none

def metadata (contentRange : Option ContentRange) : StreamingResponseMetadata :=
  let totalSize :=
    match contentRange with
    | some range => some range.total
    | none => (response.contentLength.bind headerText).bind parseUsize
  { validatedUrl := response.url
    wasPartial := contentRange.isSome
    etag := response.etag.bind headerText
    lastModified := response.lastModified.bind headerText
    rangeStart := contentRange.map ContentRange.start
    totalSize := totalSize
    expectedBodyLength := (contentRange.map ContentRange.declaredLength).or totalSize }

def body : Bytes := response.chunks.flatten

end

end Response

example : parseContentRange "bytes 5-9/20".toList =
    some { start := 5, last := 9, total := 20 } := by
  decide +kernel

end Arclain.Streaming
