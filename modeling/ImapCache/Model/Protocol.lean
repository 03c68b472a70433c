import ImapCache.Lib.Slice
import ImapCache.Model.Commands

/-!
# The protocol

Lines become commands, and the arguments of STORE, STATUS and FETCH become requests. A slice or an
index of the source is one that may panic here.
-/

namespace ImapCache.Protocol
open Lib

/-! ## Slices -/

def orBoundary {α : Type} : Option α → Except Panic α
  | some value => .ok value
  | none => .error .notCharBoundary

def textFrom (text : List Char) (start : Nat) : Except Panic (List Char) :=
  orBoundary (Slice.dropBytes text start)

def textUpTo (text : List Char) (stop : Nat) : Except Panic (List Char) :=
  orBoundary (Slice.takeBytes text stop)

def textBetween (text : List Char) (start stop : Nat) : Except Panic (List Char) :=
  orBoundary (Slice.slice text start stop)

/-- `&args[start..]`. -/
def argsFrom (args : List String) (start : Nat) : Except Panic (List String) :=
  if start ≤ args.length then .ok (args.drop start) else .error .sliceOutOfRange

/-- `args[index]`. -/
def argAt (args : List String) (index : Nat) : Except Panic String :=
  match args[index]? with
  | some arg => .ok arg
  | none => .error .sliceOutOfRange

/-! ## Texts -/

def stripSuffix (tail text : List Char) : Option (List Char) :=
  if tail.isSuffixOf text then some (text.take (text.length - tail.length)) else none

def splitWhitespace (text : List Char) : List String :=
  ((text.splitOnP isWhitespace).filter (!·.isEmpty)).map String.ofList

/-- A list without its opening and its closing parenthesis, each left out if it is there. -/
def stripParens (text : List Char) : List Char :=
  let text := (stripPrefix ['('] text).getD text
  (stripSuffix [')'] text).getD text

def startsWith (head : String) (text : List Char) : Bool := head.toList.isPrefixOf text

/-! ## Commands -/

structure ParsedCommand where
  tag : String
  name : String
  args : List String
deriving DecidableEq, Repr

/-- The characters of a quoted token and what follows it. -/
def quotedToken : List Char → List Char × List Char
  | [] => ([], [])
  | '"' :: rest => ([], rest)
  | ['\\'] => ([], [])
  | '\\' :: escaped :: rest =>
      let (token, rest) := quotedToken rest
      (escaped :: token, rest)
  | c :: rest =>
      let (token, rest) := quotedToken rest
      (c :: token, rest)

def depthAfter (opening closing : Char) (depth : Nat) (c : Char) : Nat :=
  if c = opening then depth + 1 else if c = closing then depth - 1 else depth

/-- The characters of a token up to a space outside parentheses and brackets. -/
def bareToken : Nat → Nat → List Char → List Char × List Char
  | _, _, [] => ([], [])
  | parens, brackets, c :: rest =>
      if isWhitespace c && parens == 0 && brackets == 0 then ([], c :: rest)
      else
        let (token, rest) :=
          bareToken (depthAfter '(' ')' parens c) (depthAfter '[' ']' brackets c) rest
        (c :: token, rest)

/-- Every round takes a character, so that the length of the line is fuel enough. -/
def tokenizeWith (line : List Char) : Nat → List Char → Except Error (List String)
  | _, [] => .ok []
  | 0, _ => .ok []
  | fuel + 1, c :: rest => do
      if isWhitespace c then tokenizeWith line fuel rest
      else if c = '"' then
        let (token, rest) := quotedToken rest
        let tokens ← tokenizeWith line fuel rest
        pure (String.ofList token :: tokens)
      else
        let (token, rest) := bareToken 0 0 (c :: rest)
        if token.isEmpty then
          throw (.parse ("failed to tokenize IMAP command: " ++ String.ofList line))
        else
          let tokens ← tokenizeWith line fuel rest
          pure (String.ofList token :: tokens)

def tokenize (line : List Char) : Except Error (List String) := tokenizeWith line line.length line

def trimLineEnd (line : List Char) : List Char :=
  (line.reverse.dropWhile fun c => c == '\r' || c == '\n').reverse

def parseCommand (line : String) : Except Error (Option ParsedCommand) := do
  let line := trimLineEnd line.toList
  if line.isEmpty then pure none
  else
    match ← tokenize line with
    | tag :: name :: args => pure (some ⟨tag, name, args⟩)
    | _ => throw (.parse ("expected tag and command: " ++ String.ofList line))

/-- The length of an announced literal, and whether the client waits for no answer. -/
def parseLiteralMarker (value : String) : Except Panic (Option (Nat × Bool)) := do
  let trimmed := trim value.toList
  if trimmed.head? = some '\x7b' ∧ trimmed.getLast? = some '\x7d' then
    let inner ← textBetween trimmed 1 (Slice.byteLength trimmed - 1)
    let nonSync := inner.getLast? = some '+'
    let lengthText ← if nonSync then textUpTo inner (Slice.byteLength inner - 1) else pure inner
    pure ((parseU64 lengthText).map fun length => (length, nonSync))
  else pure none

/-! ## STORE -/

inductive StoreMode where
  | replace
  | add
  | remove
deriving DecidableEq, Repr

def parseStoreItem (item : String) : Option (StoreMode × Bool) :=
  let upper := (toAsciiUppercase (String.ofList (trim item.toList))).toList
  let base := stripSuffix ".SILENT".toList upper
  match String.ofList (base.getD upper) with
  | "FLAGS" => some (.replace, base.isSome)
  | "+FLAGS" => some (.add, base.isSome)
  | "-FLAGS" => some (.remove, base.isSome)
  | _ => none

structure StoreRequest where
  set : String
  mode : StoreMode
  silent : Bool
  flags : List String
deriving DecidableEq, Repr

def parseStoreRequest (args : List String) : Except Error StoreRequest :=
  match args with
  | [] => .error (.parse "STORE requires a message set")
  | [_] => .error (.parse "STORE requires a flag list")
  | set :: item :: rest =>
      match parseStoreItem item with
      | some (mode, silent) =>
          match rest with
          | [] => .error (.parse "STORE requires a flag list")
          | flags :: _ => .ok ⟨set, mode, silent, Commands.parseFlagList flags⟩
      | none => .ok ⟨set, .replace, false, Commands.parseFlagList item⟩

/-! ## STATUS -/

def statusItems : List String :=
  ["MESSAGES", "RECENT", "UIDNEXT", "UIDVALIDITY", "UNSEEN", "HIGHESTMODSEQ"]

def parseStatusItems (args : List String) : Except Error (List String) :=
  match args with
  | [] => .error (.parse "STATUS requires a status item list")
  | value :: _ => do
      let items ← (splitWhitespace (stripParens (trim value.toList))).foldlM (fun items item =>
        let upper := toAsciiUppercase item
        if statusItems.contains upper then
          if items.contains upper then .ok items else .ok (items ++ [upper])
        else .error (.parse ("STATUS does not support item " ++ upper))) []
      if items.isEmpty then throw (.parse "STATUS requires at least one item") else pure items

def statusItem (mailbox : Mailbox) (item : String) : Option String :=
  match item with
  | "MESSAGES" => some ("MESSAGES " ++ toString mailbox.existsCount)
  | "RECENT" => some ("RECENT " ++ toString mailbox.recentCount)
  | "UNSEEN" => some ("UNSEEN " ++ toString mailbox.unseenCount)
  | "UIDNEXT" => some ("UIDNEXT " ++ toString (mailbox.uidnext.getD 1))
  | "UIDVALIDITY" => some ("UIDVALIDITY " ++ toString (mailbox.uidvalidity.getD 1))
  | "HIGHESTMODSEQ" => some ("HIGHESTMODSEQ " ++ toString (mailbox.highestmodseq.getD 0))
  | _ => none

def formatStatusResponse (mailbox : Mailbox) (items : List String) : String :=
  "* STATUS " ++ Responses.quoteImapString mailbox.name ++ " (" ++
    Responses.join (items.filterMap (statusItem mailbox)) ++ ")"

def formatStatusResponseWithDefaults (mailboxName : String) (items : List String) : String :=
  formatStatusResponse
    { accountId := 0, name := mailboxName, canonicalName := toAsciiLowercase mailboxName
      delimiter := some "/", attributes := [], subscribed := false, specialUse := none
      uidvalidity := some 1, uidnext := some 1, highestmodseq := none, existsCount := 0
      recentCount := 0, unseenCount := 0 } items

/-! ## Number sets of results -/

def formatRange (first last : Nat) : String :=
  if first = last then toString first else toString first ++ ":" ++ toString last

/-- The ranges of an ascending list, `(first, last)` being the open one. -/
def numberRanges (first last : Nat) : List Nat → List String
  | [] => [formatRange first last]
  | value :: values =>
      if value = last + 1 then numberRanges first value values
      else formatRange first last :: numberRanges value value values

def formatNumberSet (values : List Nat) : String :=
  match (values.insertionSort (· ≤ ·)).destutter (· ≠ ·) with
  | [] => ""
  | first :: values => ",".intercalate (numberRanges first first values)

/-! ## FETCH -/

structure ItemScan where
  items : List String
  current : List Char
  parens : Nat
  brackets : Nat
  inQuotes : Bool

/-- The item that is open, if it has any text. -/
def ItemScan.close (scan : ItemScan) : List String :=
  if (trim scan.current).isEmpty then scan.items
  else scan.items ++ [toAsciiUppercase (String.ofList (trim scan.current))]

def ItemScan.next (scan : ItemScan) (c : Char) : ItemScan :=
  let push : ItemScan := { scan with current := scan.current ++ [c] }
  if c = '"' then { push with inQuotes := !scan.inQuotes }
  else if scan.inQuotes then push
  else if [')', '(', '[', ']'].contains c then
    { push with parens := depthAfter '(' ')' scan.parens c
                brackets := depthAfter '[' ']' scan.brackets c }
  else if isWhitespace c && scan.parens == 0 && scan.brackets == 0 then
    if (trim scan.current).isEmpty then scan else { scan with items := scan.close, current := [] }
  else push

def parseFetchItems (args : List String) : List String :=
  let text := stripParens (trim (Responses.join args).toList)
  let items := (text.foldl ItemScan.next ⟨[], [], 0, 0, false⟩).close
  if items.isEmpty then ["FLAGS", "UID", "RFC822.SIZE", "ENVELOPE", "BODYSTRUCTURE"] else items

inductive FetchBodySection where
  | full
  | header
  | text
  | mime
  | headerFields (names : List String) (negated : Bool)
deriving DecidableEq, Repr

inductive RawFetchSection where
  | whole (bodySection : FetchBodySection)
  | part (path : String) (bodySection : FetchBodySection)
deriving DecidableEq, Repr

structure RawFetchRequest where
  label : String
  bodySection : RawFetchSection
  range : Option (Nat × Option Nat)
  peek : Bool
deriving DecidableEq, Repr

/-- The item before a range in angle brackets and the range; nothing if the range does not start
with a number. -/
def splitRange (item : List Char) :
    Except Panic (Option (List Char × Option (Nat × Option Nat))) := do
  let lastBracket (rest : List Char) : Bool := rest.head? == some '<' && !rest.tail.contains '<'
  match Slice.findOffset lastBracket item with
  | some start =>
      if item.getLast? = some '>' then
        let marker ← textBetween item (start + 1) (Slice.byteLength item - 1)
        let item ← textUpTo item start
        match marker.splitOn '.' with
        | first :: rest => pure ((parseU64 first).map fun offset =>
            (item, some (offset, rest.head?.bind parseU64)))
        | [] => pure none
      else pure (some (item, none))
  | none => pure (some (item, none))

def sectionMarkers : List (String × Option Bool) :=
  [(".HEADER.FIELDS.NOT (", some true), (".HEADER.FIELDS (", some false), (".HEADER", none),
    (".TEXT", none), (".MIME", none)]

/-- The names in the parentheses of a header fields section. -/
def fieldNames (suffix : List Char) : Option (List String) :=
  ((stripPrefix "HEADER.FIELDS.NOT (".toList suffix).or
    (stripPrefix "HEADER.FIELDS (".toList suffix)).bind fun names =>
      (stripSuffix [')'] names).map splitWhitespace

/-- The loop over the section markers; `none` leaves it without a request. -/
def partSection (inner : List Char) :
    List (String × Option Bool) → Except Panic (Option (String × FetchBodySection))
  | [] => pure (if inner.all fun c => c.isDigit || c == '.' then
      some (String.ofList inner, .full) else none)
  | (marker, negated) :: markers =>
      match Slice.findOffset (startsWith marker) inner with
      | none => partSection inner markers
      | some index => do
          let path ← textUpTo inner index
          let suffix ← textFrom inner (index + 1)
          match negated with
          | some negated =>
              pure ((fieldNames suffix).map fun names =>
                (String.ofList path, .headerFields names negated))
          | none =>
              match String.ofList suffix with
              | "HEADER" => pure (some (String.ofList path, .header))
              | "TEXT" => pure (some (String.ofList path, .text))
              | "MIME" => pure (some (String.ofList path, .mime))
              | _ => partSection inner markers

def parseBodyPartFetchRequest (item : List Char) :
    Except Panic (Option (String × FetchBodySection)) :=
  match (stripPrefix "BODY[".toList item).bind (stripSuffix [']']) with
  | none => pure none
  | some inner => if inner.isEmpty then pure (some ("1", .full)) else partSection inner sectionMarkers

/-- The sections of a whole message and whether reading them can be a peek. -/
def wholeSection (item : List Char) : Option (FetchBodySection × Bool) :=
  match String.ofList item with
  | "RFC822" => some (.full, false)
  | "RFC822.HEADER" => some (.header, false)
  | "RFC822.TEXT" => some (.text, false)
  | "BODY[]" | "BODY.PEEK[]" => some (.full, true)
  | "BODY[HEADER]" => some (.header, true)
  | "BODY[TEXT]" => some (.text, true)
  | "BODY[MIME]" => some (.mime, true)
  | _ =>
      let fields (head : String) (negated : Bool) : Option (FetchBodySection × Bool) :=
        ((stripPrefix head.toList item).bind (stripSuffix [')', ']'])).map fun inner =>
          (.headerFields (splitWhitespace inner) negated, true)
      (fields "BODY[HEADER.FIELDS (" false).or (fields "BODY[HEADER.FIELDS.NOT (" true)

def parseRawFetchRequest (label : String) : Except Panic (Option RawFetchRequest) := do
  let peekHead := "BODY.PEEK[".toList
  let peek := peekHead.isPrefixOf label.toList
  let item := if peek then "BODY[".toList ++ label.toList.drop peekHead.length else label.toList
  match ← splitRange item with
  | none => pure none
  | some (item, range) =>
      match wholeSection item with
      | some (bodySection, peeks) => pure (some ⟨label, .whole bodySection, range, peek && peeks⟩)
      | none => do
          let part ← parseBodyPartFetchRequest item
          pure (part.map fun part => ⟨label, .part part.1 part.2, range, peek⟩)

end ImapCache.Protocol
