import Shroudb.Wire.Reader
import Shroudb.Resp3.Frame

/-! The server's `read_frame`, with its size, count and depth limits. -/
namespace Shroudb
open Wire

inductive ProtocolError where
  | invalidTypeByte (b : UInt8)
  | frameTooLarge (n : Nat)
  | nestingTooDeep
  | invalidFormat (message : String)
  | io (message : String)
deriving DecidableEq, Repr

def ProtocolError.text : ProtocolError → String
  | .invalidTypeByte b =>
    "invalid type byte: 0x" ++
      String.ofList [Nat.digitChar (b.toNat / 16), Nat.digitChar (b.toNat % 16)]
  | .frameTooLarge n => "frame too large: " ++ n.repr ++ " bytes"
  | .nestingTooDeep => "nesting too deep"
  | .invalidFormat message => "invalid format: " ++ message
  | .io message => message

namespace Resp3Frame

def maxBulkSize : Nat := 16 * 1024 * 1024

def maxCollectionSize : Nat := 100000

def maxDepth : Nat := 8

/-- A line without its final `\n`, nor the single `\r` before it. -/
def chomp (s : String) : String :=
  match s.toList.reverse with
  | '\n' :: '\r' :: cs => String.ofList cs.reverse
  | '\n' :: cs => String.ofList cs.reverse
  | _ => s

def readLine : Reader ProtocolError String := do
  let line ← Reader.line (.io "stream did not contain valid UTF-8")
  return chomp line

def readExact (n : Nat) : Reader ProtocolError Bytes := Reader.exactly n (.io "early eof")

def expectCrlf (what : String) : Reader ProtocolError Unit := do
  let bytes ← readExact 2
  if bytes = crlf then return ()
  else Reader.fail (.invalidFormat ("missing CRLF after " ++ what))

/-- A `usize` length line, refused above `limit`. -/
def readLength (what : String) (limit : Nat) : Reader ProtocolError Nat := do
  let line ← readLine
  match parseUnsigned (2 ^ 64 - 1) line with
  | .error e => Reader.fail (.invalidFormat ("bad " ++ what ++ " length: " ++ e.text))
  | .ok n => if n > limit then Reader.fail (.frameTooLarge n) else return n

/-- A child frame, where the end of the stream is an error. -/
def readChild (inner : Reader ProtocolError (Option Resp3Frame)) (what : String) :
    Reader ProtocolError Resp3Frame := do
  match ← inner with
  | some f => return f
  | none => Reader.fail (.invalidFormat ("unexpected EOF in " ++ what))

def readPair (inner : Reader ProtocolError (Option Resp3Frame)) :
    Reader ProtocolError (Resp3Frame × Resp3Frame) := do
  let key ← readChild inner "map key"
  let value ← readChild inner "map value"
  return (key, value)

def readPayload (inner : Reader ProtocolError (Option Resp3Frame)) (typeByte : UInt8) :
    Reader ProtocolError Resp3Frame :=
  if typeByte = 43 then do
    return .simpleString (← readLine)
  else if typeByte = 45 then do
    return .simpleError (← readLine)
  else if typeByte = 58 then do
    let line ← readLine
    match parseInt64 line with
    | .error e => Reader.fail (.invalidFormat ("bad integer: " ++ e.text))
    | .ok n => return .integer n
  else if typeByte = 36 then do
    let len ← readLength "bulk" maxBulkSize
    let data ← readExact len
    expectCrlf "bulk string"
    return .bulkString data
  else if typeByte = 42 then do
    let count ← readLength "array" maxCollectionSize
    return .array (← Reader.times (readChild inner "array") count)
  else if typeByte = 37 then do
    let count ← readLength "map" maxCollectionSize
    return .map (← Reader.times (readPair inner) count)
  else if typeByte = 62 then do
    let count ← readLength "push" maxCollectionSize
    return .push (← Reader.times (readChild inner "push frame") count)
  else if typeByte = 95 then do
    expectCrlf "null"
    return .null
  else Reader.fail (.invalidTypeByte typeByte)

/-- `levels` nesting levels are still allowed; `read_frame_depth` refuses at none. -/
def readFrameAt : Nat → Reader ProtocolError (Option Resp3Frame)
  | 0 => Reader.fail .nestingTooDeep
  | levels + 1 => do
    if ← Reader.atEnd then return none
    else do
      let typeByte ← readExact 1
      return some (← readPayload (readFrameAt levels) (typeByte.headD 0))

def readFrameDepth (depth : Nat) : Reader ProtocolError (Option Resp3Frame) :=
  readFrameAt (maxDepth + 1 - depth)

def readFrame : Reader ProtocolError (Option Resp3Frame) := readFrameDepth 0

end Resp3Frame

end Shroudb
