import ImapCache.Model.ObjectStores
import Mathlib.Logic.Function.Basic

/-!
# The filesystem store

`FilesystemObjectStore`, call by call: what each `await` of `put`, `get` and `get_range` does to the file
of one key. Calls take their steps in any order, and one can be dropped between two of them.
-/

namespace ImapCache.FilesystemStore
open ObjectStores

/-- Where a call is. A write call of `put` knows how much is written, a read what it has so far. -/
inductive Call where
  | idle
  | putStart (bytes : Bytes)
  | putCreateDirAll (bytes : Bytes)
  | putCreate (bytes : Bytes)
  | putWrite (bytes : Bytes) (written : Nat)
  | putDone (result : Except Error ObjectMetadata)
  | getOpen
  | getRead (found : Bytes)
  | getDone (result : Except Error (Option Bytes))
  | rangeOpen (start : Nat) (stop : Option Nat)
  | rangeMetadata (start : Nat) (stop : Option Nat)
  | rangeRead (start : Nat) (stop : Option Nat) (left : Nat) (found : Bytes)
  | rangeDone (start : Nat) (stop : Option Nat) (result : Reading)
  | cutOff

inductive Request where
  | put (bytes : Bytes)
  | get
  | getRange (start : Nat) (stop : Option Nat)

def Request.call : Request → Call
  | put bytes => .putStart bytes
  | get => .getOpen
  | getRange start stop => .rangeOpen start stop

/-- A write to an open file at a position; a gap before it reads as zeros. -/
def writeAt (position : Nat) (piece file : Bytes) : Bytes :=
  file.take position ++ List.replicate (position - file.length) 0 ++ piece ++
    file.drop (position + piece.length)

/-- The next step of a call on the file, if there is one. A write or a read moves as many bytes as the
system takes, `size` and one at most. -/
def advance (lib : Libraries) (key : String) (size : Nat) (file : Option Bytes) :
    Call → Option (Option Bytes × Call)
  | .putStart bytes =>
      match validateContentAddressedBytes lib key bytes with
      | .ok _ => some (file, .putCreateDirAll bytes)
      | .error err => some (file, .putDone (.error err))
  | .putCreateDirAll bytes => some (file, .putCreate bytes)
  -- `File::create` empties a file that is there
  | .putCreate bytes => some (some [], .putWrite bytes 0)
  | .putWrite bytes written =>
      if written < bytes.length then
        let piece := (bytes.drop written).take (size + 1)
        some (file.map (writeAt written piece), .putWrite bytes (written + piece.length))
      else some (file, .putDone (.ok ⟨key, lib.sha256 bytes, bytes.length⟩))
  | .getOpen =>
      match file with
      | none => some (file, .getDone (.ok none))
      | some _ => some (file, .getRead [])
  | .getRead found =>
      let piece := ((file.getD []).drop found.length).take (size + 1)
      if piece.isEmpty then
        some (file, .getDone ((validateContentAddressedBytes lib key found).map fun _ => some found))
      else some (file, .getRead (found ++ piece))
  | .rangeOpen start stop =>
      match file with
      | none => some (file, .rangeDone start stop (.ok (.ok none)))
      | some _ => some (file, .rangeMetadata start stop)
  | .rangeMetadata start stop =>
      let length := (file.getD []).length
      if start ≥ length then some (file, .rangeDone start stop (.ok (.ok (some []))))
      else
        let last := min (stop.getD length) length
        if last < start then some (file, .rangeDone start stop (.error .capacityOverflow))
        else some (file, .rangeRead start stop (last - start) [])
  | .rangeRead start stop left found =>
      if left = 0 then some (file, .rangeDone start stop (.ok (.ok (some found))))
      else
        let piece := ((file.getD []).drop (start + found.length)).take (min (size + 1) left)
        if piece.isEmpty then some (file, .rangeDone start stop (.ok (.error (.io "early eof"))))
        else some (file, .rangeRead start stop (left - piece.length) (found ++ piece))
  | .idle | .putDone _ | .getDone _ | .rangeDone .. | .cutOff => none

/-- The file of a key and the calls on it. -/
structure State where
  file : Option Bytes
  calls : Nat → Call

def State.start : State := ⟨none, fun _ => .idle⟩

def State.set (state : State) (pid : Nat) (file : Option Bytes) (call : Call) : State :=
  ⟨file, Function.update state.calls pid call⟩

inductive Event where
  | begin (pid : Nat) (request : Request)
  | advance (pid : Nat) (size : Nat)
  | cut (pid : Nat)

/-- A call that has begun takes its next step or is cut off. -/
def step (lib : Libraries) (key : String) (state : State) : Event → Option State
  | .begin pid request =>
      match state.calls pid with
      | .idle => some (state.set pid state.file request.call)
      | _ => none
  | .advance pid size =>
      (advance lib key size state.file (state.calls pid)).map fun (file, call) => state.set pid file call
  | .cut pid =>
      (advance lib key 0 state.file (state.calls pid)).map fun _ => state.set pid state.file .cutOff

end ImapCache.FilesystemStore
