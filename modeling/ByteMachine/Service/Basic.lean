import ByteMachine.Service.Reply
import ByteMachine.Service.Request

/-!
# The service

A session is driven by request lines, and each line that is not blank has one reply. A line that is
no request has a reply that says why, and leaves the session as it is. The bytes of a line must be
UTF-8; the service ends at a line that is not. How requests are written is a parameter.
-/
namespace ByteMachine

/-- Reads the operation that a line asks for, or says why it asks for none. -/
abbrev LineReader := Text → Except String Operation

def Request.read : LineReader := fun line => (ofLine line).mapError RequestError.message

inductive Reply where
  | answered (response : Response)
  | refused (message : String)

def Reply.toJson : Reply → Json.Value
  | answered response => response.toJson
  | refused message => .record [("error", .ofString message)]

/-- The text of a reply, with the end of its line. -/
def Reply.line (r : Reply) : String := String.ofList (r.toJson.compact ++ ['\n'])

/-- The lines of a stream of bytes. A line feed ends a line, and takes one carriage return before it
along. -/
def byteLines : List UInt8 → List (List UInt8)
  | [] => []
  | 0x0A :: rest => [] :: byteLines rest
  | 0x0D :: 0x0A :: rest => [] :: byteLines rest
  | b :: rest =>
    match byteLines rest with
    | [] => [[b]]
    | line :: more => (b :: line) :: more

/-- The text that bytes encode, if they are UTF-8. -/
def decodeText? (bytes : List UInt8) : Option Text :=
  (String.fromUTF8? ⟨bytes.toArray⟩).map String.toList

/-- The message for a stream that holds a line that is not UTF-8. -/
def invalidTextMessage : String := "I/O error: stream did not contain valid UTF-8"

namespace Session

/-- The session after a line, and the reply to it unless the line is blank. -/
def serveLine (read : LineReader) (s : Session) (line : Text) : Session × Option Reply :=
  if line.trim.isEmpty then (s, none)
  else match read line with
    | .ok op =>
      let (s, response) := s.perform op
      (s, some (.answered response))
    | .error message => (s, some (.refused message))

structure Service where
  session : Session
  replies : List Reply
  /-- Whether all lines were text. -/
  completed : Bool

def serveLines (read : LineReader) : Session → List (List UInt8) → Service
  | s, [] => ⟨s, [], true⟩
  | s, line :: rest =>
    match decodeText? line with
    | none => ⟨s, [], false⟩
    | some line =>
      let (next, reply) := s.serveLine read line
      let service := next.serveLines read rest
      { service with replies := reply.toList ++ service.replies }

def serve (read : LineReader) (s : Session) (input : List UInt8) : Service :=
  s.serveLines read (byteLines input)

end Session
end ByteMachine
