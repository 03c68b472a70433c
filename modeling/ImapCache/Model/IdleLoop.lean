import ImapCache.Model.Connection

/-!
# The loop of IDLE

`handle_idle_command_with_timeout` waits for a line, for an event and for the timeout at once. The
bytes of the client arrive in chunks. A `read_line` that is pending has taken them out of the stream
although its line is not complete, and it is dropped, with what it has taken, when another branch of
the `select!` is ready first.
-/

namespace ImapCache.Session
open Lib Prog

structure IdleStream where
  /-- The bytes that have arrived and that no read has taken. -/
  unread : Bytes
  /-- The bytes in the buffer of the pending read. -/
  taken : Bytes
  /-- The client sends nothing more. -/
  ended : Bool
deriving DecidableEq, Repr

/-- A poll of the pending read, which is ready with the bytes of a line, or with what is left when the
stream has ended. -/
def IdleStream.poll (stream : IdleStream) : Option Bytes × IdleStream :=
  let (line, rest) := readLine stream.unread
  let taken := stream.taken ++ line
  if line.getLast? = some 0x0A ∨ stream.ended = true then (some taken, ⟨rest, [], stream.ended⟩)
  else (none, ⟨rest, taken, stream.ended⟩)

/-- Another branch was ready: the next round starts with a new read and an empty line. -/
def IdleStream.dropRead (stream : IdleStream) : IdleStream := { stream with taken := [] }

def IdleStream.arrive (stream : IdleStream) (chunk : Bytes) : IdleStream :=
  { stream with unread := stream.unread ++ chunk }

/-- What happens while the loop waits: bytes arrive or end, a branch is polled or ready. -/
inductive Moment where
  | arrive (chunk : Bytes)
  | eof
  | poll
  | timeout
  | event (event : MutationEvent)
  | lagged
  | closed

/-- The lines of an IDLE end with one that says DONE. -/
def isDone (text : String) : Bool := eqIgnoreAsciiCase (String.ofList (Protocol.trimLineEnd text.toList)) "DONE"

inductive IdleEnd where
  | waiting
  | terminated
  | timedOut
  | eventsClosed
  | disconnected
deriving DecidableEq, Repr

/-- What the loop has sent, and the stream and the moments that it leaves. -/
structure Idled where
  lines : List String
  session : ImapSession
  outcome : IdleEnd
  stream : IdleStream
  later : List Moment

def idleLoop (server : Server) (tag : String) (session : ImapSession) (stream : IdleStream) :
    List Moment → Action Idled
  | [] => pure ⟨[], session, .waiting, stream, []⟩
  | .arrive chunk :: moments => idleLoop server tag session (stream.arrive chunk) moments
  | .eof :: moments => idleLoop server tag session { stream with ended := true } moments
  | .poll :: moments =>
      match stream.poll with
      | (none, stream) => idleLoop server tag session stream moments
      | (some bytes, stream) =>
          if bytes.isEmpty then pure ⟨[], session, .disconnected, stream, moments⟩
          else
            match fromUtf8 bytes with
            | none => throw (.io "stream did not contain valid UTF-8")
            | some text =>
                if isDone text then
                  pure ⟨[Commands.ok tag "IDLE terminated"], session, .terminated, stream, moments⟩
                else idleLoop server tag session stream moments
  | .timeout :: moments => pure ⟨["* BYE IDLE timeout"], session, .timedOut, stream.dropRead, moments⟩
  | .event event :: moments => do
      let (line, session) ← idleNotificationForEvent server session event
      let rest ← idleLoop server tag session stream.dropRead moments
      pure { rest with lines := line.toList ++ rest.lines }
  | .lagged :: moments => idleLoop server tag session stream.dropRead moments
  | .closed :: moments => pure ⟨[], session, .eventsClosed, stream.dropRead, moments⟩

end ImapCache.Session
