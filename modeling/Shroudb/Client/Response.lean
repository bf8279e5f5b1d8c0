import Shroudb.Wire.Reader
import Shroudb.Resp3.Frame

/-! Responses as the client sees them, and its RESP3 decoder `read_value`. -/
namespace Shroudb
open Wire

inductive Response where
  | string (s : String)
  | error (e : String)
  | integer (n : Int64)
  | null
  | array (items : List Response)
  | map (entries : List (Response × Response))
deriving BEq, Repr

inductive ClientError where
  | connection (message : String)
  | server (message : String)
  | protocol (message : String)
  | authRequired
  | serialization (message : String)
  | responseFormat (message : String)
  | timeout
deriving DecidableEq, Repr

def ClientError.text : ClientError → String
  | .connection message => "connection failed: " ++ message
  | .server message => "server error: " ++ message
  | .protocol message => "protocol error: " ++ message
  | .authRequired => "authentication required"
  | .serialization message => "serialization failed: " ++ message
  | .responseFormat message => "unexpected response format: " ++ message
  | .timeout => "operation timed out"

/-- How a call of the decoder fails: with an error, or by panicking. -/
inductive ReadFailure where
  | error (e : ClientError)
  | panic (reason : String)
deriving DecidableEq, Repr

namespace Response

/-- `isize::MAX`, the largest allocation in bytes. -/
def maxAllocation : Nat := 2 ^ 63 - 1

/-- The bytes one `Response` takes in a `Vec`. -/
def responseSize : Nat := 32

/-- `trim_end_matches("\r\n")` then `trim_end_matches('\n')`, on the reversed characters. -/
def trimCrlf : List Char → List Char
  | '\n' :: '\r' :: cs => trimCrlf cs
  | cs => cs

def trimLine (line : String) : List Char :=
  ((trimCrlf line.toList.reverse).dropWhile (· = '\n')).reverse

def protocolError {α : Type} (message : String) : Reader ReadFailure α :=
  Reader.fail (.error (.protocol message))

def parseLength (what payload : String) : Reader ReadFailure Int64 :=
  match parseInt64 payload with
  | .ok n => pure n
  | .error e => protocolError ("invalid " ++ what ++ " length: " ++ e.text)

/-- `count as usize` elements of `size` bytes each, refused by the allocator when too large. -/
def withCapacity (count : Int64) (size : Nat) : Reader ReadFailure Nat :=
  if count.toUInt64.toNat * size ≤ maxAllocation then pure count.toUInt64.toNat
  else Reader.fail (.panic "capacity overflow")

def readItems (inner : Reader ReadFailure Response) (count : Int64) : Reader ReadFailure Response := do
  let n ← withCapacity count responseSize
  return .array (← Reader.times inner n)

def readEntry (inner : Reader ReadFailure Response) : Reader ReadFailure (Response × Response) := do
  let key ← inner
  let value ← inner
  return (key, value)

def hexByteText (b : Nat) : String :=
  String.ofList [Nat.digitChar (b / 16), Nat.digitChar (b % 16)]

/-- What follows the type byte of a line. -/
def readBody (inner : Reader ReadFailure Response) (typeByte : Char) (payload : String) :
    Reader ReadFailure Response :=
  match typeByte with
  | '+' => pure (.string payload)
  | '-' => pure (.error payload)
  | ':' =>
    match parseInt64 payload with
    | .ok n => pure (.integer n)
    | .error e => protocolError ("invalid integer: " ++ e.text)
  | '_' => pure .null
  | '$' => do
    let len ← parseLength "bulk" payload
    if len < 0 then return .null
    else do
      let size ← withCapacity (len + 2) 1
      let buf ← Reader.exactly size (.error (.connection "early eof"))
      return .string (fromUtf8Lossy (buf.take (size - 2)))
  | '*' => do
    let count ← parseLength "array" payload
    if count < 0 then return .null else readItems inner count
  | '%' => do
    let count ← parseLength "map" payload
    let n ← withCapacity count (2 * responseSize)
    return .map (← Reader.times (readEntry inner) n)
  | '#' =>
    match payload with
    | "t" => pure (.string "true")
    | "f" => pure (.string "false")
    | _ => protocolError ("invalid boolean value: " ++ payload)
  | ',' => pure (.string payload)
  | '>' => do readItems inner (← parseLength "push" payload)
  | '~' => do readItems inner (← parseLength "set" payload)
  | c => protocolError ("unsupported RESP3 type: '" ++ c.toString ++ "' (0x" ++ hexByteText c.toNat ++ ")")

/-- The slice after the first byte panics inside a character. -/
def readLineBody (inner : Reader ReadFailure Response) (line : String) :
    Reader ReadFailure Response :=
  if line = "" then protocolError "connection closed"
  else
    match trimLine line with
    | [] => protocolError "empty response"
    | c :: cs =>
      if c.utf8Size = 1 then readBody inner c (String.ofList cs)
      else Reader.fail (.panic "byte index 1 is not a char boundary")

/-- A nested value starts on a line of its own, so `levels` above the number of bytes suffices. -/
def readValueAt : Nat → Reader ReadFailure Response
  | 0 => fun _ _ => .more
  | levels + 1 => do
    let line ← Reader.line (.error (.connection "stream did not contain valid UTF-8"))
    readLineBody (readValueAt levels) line

def readValue : Reader ReadFailure Response := fun ended bs => readValueAt (bs.length + 1) ended bs

end Response

end Shroudb
