import ImapCache.Model.Protocol

/-!
# The lines of the upstream client

What `UpstreamClient` reads out of the untagged lines of a response, and what it writes to append a
message.
-/

namespace ImapCache.UpstreamLines
open Protocol

/-- `str::rsplit_once` of one character. -/
def rsplitOnce (separator : Char) (text : List Char) : Option (List Char × List Char) :=
  let after := (text.reverse.takeWhile (· != separator)).reverse
  if after.length = text.length then none
  else some (text.take (text.length - after.length - 1), after)

/-- The loop of `unquote`; the flag says that the last character was a backslash. -/
def unescape : Bool → List Char → List Char
  | _, [] => []
  | true, c :: rest => c :: unescape false rest
  | false, c :: rest => if c = '\\' then unescape true rest else c :: unescape false rest

-- A quote is one byte, so that a text that starts with one has two bytes as soon as it has two
-- characters.
def unquote (value : List Char) : String :=
  let trimmed := trim value
  if trimmed.head? = some '"' ∧ trimmed.getLast? = some '"' ∧ 2 ≤ trimmed.length then
    String.ofList (unescape false (trimmed.drop 1).dropLast)
  else String.ofList trimmed

def parseListMailboxName (line : String) : Option String := do
  let trimmed := trim line.toList
  guard (startsWith "* LIST " trimmed)
  let (_, mailbox) ← rsplitOnce ' ' trimmed
  some (unquote mailbox)

/-- The names that `list_mailboxes` takes from the untagged lines of its response. -/
def listMailboxes (untagged : List String) : List String := untagged.filterMap parseListMailboxName

/-! ## APPEND -/

def quote (value : String) : String :=
  "\"" ++ Responses.replaceChar '"' ['\\', '"'] (Responses.replaceChar '\\' ['\\', '\\'] value) ++ "\""

/-- `format!("A{:04}", self.next_tag)`. -/
def tagText (nextTag : Nat) : String :=
  "A" ++ String.ofList (List.replicate (4 - (toString nextTag).length) '0') ++ toString nextTag

/-- The line that `append_with_internal_date` writes first. -/
def appendLine (lib : Libraries) (nextTag : Nat) (mailbox : String) (flags : List String)
    (internalDate : Option Int) (data : Bytes) : String :=
  let line := tagText nextTag ++ " " ++ "APPEND" ++ " " ++ quote mailbox
  let line := if flags.isEmpty then line else line ++ " " ++ ("(" ++ Responses.join flags ++ ")")
  let line := match internalDate with
    | some date => line ++ " " ++ quote (lib.formatImapDate date)
    | none => line
  line ++ " " ++ ("\x7b" ++ toString data.length ++ "\x7d\r\n")

/-- What it writes once the server asks for it. -/
def appendPayload (data : Bytes) : Bytes := data ++ [0x0D, 0x0A]

end ImapCache.UpstreamLines
