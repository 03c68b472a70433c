import ImapCache.Model.Domain

/-!
# Search queries

The criteria of SEARCH as `SearchQuery::from_imap_args` reads them: keys that every message is
checked against, a text query for the index, and a tree of NOT and OR terms.
-/

namespace ImapCache

def toAsciiUppercase (s : String) : String := String.ofList (s.toList.map Char.toUpper)

/-- `char::is_whitespace`. -/
def isWhitespace (c : Char) : Bool :=
  (0x9 ≤ c.toNat && c.toNat ≤ 0xD) || (0x2000 ≤ c.toNat && c.toNat ≤ 0x200A) ||
    [0x20, 0x85, 0xA0, 0x1680, 0x2028, 0x2029, 0x202F, 0x205F, 0x3000].contains c.toNat

def trim (s : List Char) : List Char :=
  ((s.dropWhile isWhitespace).reverse.dropWhile isWhitespace).reverse

/-- `str::strip_prefix`. -/
def stripPrefix (head text : List Char) : Option (List Char) :=
  if head.isPrefixOf text then some (text.drop head.length) else none

/-- `str::parse::<u64>`: an optional plus sign and at least one digit, in range. -/
def parseU64 (token : List Char) : Option Nat :=
  let digits := match token with
    | '+' :: rest => rest
    | digits => digits
  if digits.isEmpty || digits.any (!·.isDigit) then none
  else
    let value := digits.foldl (fun n c => 10 * n + (c.toNat - '0'.toNat)) (0 : Nat)
    if value < 18446744073709551616 then some value else none

namespace Search

/-! ## UID sets -/

structure UidSet where
  ranges : List (Nat × Nat)
deriving DecidableEq, Repr

namespace UidSet

def contains (set : UidSet) (uid : Nat) : Bool :=
  set.ranges.any fun range => range.1 ≤ uid && uid ≤ range.2

def push (set : UidSet) (first last : Nat) : UidSet :=
  ⟨set.ranges ++ [(min first last, max first last)]⟩

def union (a b : UidSet) : UidSet := ⟨a.ranges ++ b.ranges⟩

end UidSet

def parseUidBound (value : String) : Except Error (Option Nat) :=
  if value = "*" then .ok none
  else
    match parseU64 value.toList with
    | some uid => .ok (some uid)
    | none => .error (.parse ("invalid UID bound: " ++ value))

def parseUidPart (set : UidSet) (part : List Char) : Except Error UidSet :=
  match splitOnce ':' (String.ofList part) with
  | some (first, last) => do
      let first ← parseUidBound first
      let last ← parseUidBound last
      pure (set.push (first.getD 1) (last.getD 18446744073709551615))
  | none => do
      let uid ← parseUidBound (String.ofList part)
      match uid with
      | some uid => pure (set.push uid uid)
      | none => throw (.parse "UID must be numeric")

def parseUidSet (value : String) : Except Error UidSet :=
  (value.toList.splitOn ',').foldlM parseUidPart ⟨[]⟩

/-! ## Queries -/

/-- The criteria of one search key, or of several merged into one. A date is a day. -/
structure SearchKeys where
  matchAll : Bool
  queryString : Option String
  uidFilter : Option UidSet
  recentOnly : Bool
  oldOnly : Bool
  headerFilters : List (String × String)
  requiredFlags : List String
  forbiddenFlags : List String
  requiredKeywords : List String
  forbiddenKeywords : List String
  largerThan : Option Nat
  smallerThan : Option Nat
  internalDateBefore : Option Int
  internalDateOn : Option Int
  internalDateSince : Option Int
  sentDateBefore : Option Int
  sentDateOn : Option Int
  sentDateSince : Option Int
deriving DecidableEq, Repr

/-- The keys of a leaf never have a tree of their own. -/
inductive SearchExpr where
  | leaf (keys : SearchKeys)
  | and (children : List SearchExpr)
  | or (left right : SearchExpr)
  | not (inner : SearchExpr)

structure SearchQuery where
  keys : SearchKeys
  expr : Option SearchExpr

namespace SearchKeys

def all : SearchKeys :=
  { matchAll := true, queryString := none, uidFilter := none, recentOnly := false, oldOnly := false
    headerFilters := [], requiredFlags := [], forbiddenFlags := [], requiredKeywords := []
    forbiddenKeywords := [], largerThan := none, smallerThan := none, internalDateBefore := none
    internalDateOn := none, internalDateSince := none, sentDateBefore := none, sentDateOn := none
    sentDateSince := none }

/-- `is_identity_query` of keys without a tree: nothing is asked for. -/
def isIdentity (keys : SearchKeys) : Bool := { keys with matchAll := true } == all

/-- The combination of two optional bounds. -/
def mergeBound {α : Type} (pick : α → α → α) : Option α → Option α → Option α
  | some existing, some next => some (pick existing next)
  | none, next => next
  | existing, none => existing

def mergeQueryString : Option String → Option String → Option String
  | some existing, some fragment => some (existing ++ " " ++ fragment)
  | none, fragment => fragment
  | existing, none => existing

/-- `merge_query_fields`. -/
def merge (acc fragment : SearchKeys) : SearchKeys :=
  { matchAll := false
    queryString := mergeQueryString acc.queryString fragment.queryString
    uidFilter := mergeBound UidSet.union acc.uidFilter fragment.uidFilter
    recentOnly := acc.recentOnly || fragment.recentOnly
    oldOnly := acc.oldOnly || fragment.oldOnly
    headerFilters := acc.headerFilters ++ fragment.headerFilters
    requiredFlags := acc.requiredFlags ++ fragment.requiredFlags
    forbiddenFlags := acc.forbiddenFlags ++ fragment.forbiddenFlags
    requiredKeywords := acc.requiredKeywords ++ fragment.requiredKeywords
    forbiddenKeywords := acc.forbiddenKeywords ++ fragment.forbiddenKeywords
    largerThan := mergeBound max acc.largerThan fragment.largerThan
    smallerThan := mergeBound min acc.smallerThan fragment.smallerThan
    internalDateBefore := mergeBound min acc.internalDateBefore fragment.internalDateBefore
    internalDateOn := acc.internalDateOn.or fragment.internalDateOn
    internalDateSince := mergeBound max acc.internalDateSince fragment.internalDateSince
    sentDateBefore := mergeBound min acc.sentDateBefore fragment.sentDateBefore
    sentDateOn := acc.sentDateOn.or fragment.sentDateOn
    sentDateSince := mergeBound max acc.sentDateSince fragment.sentDateSince }

end SearchKeys

/-! ## Reading terms -/

def quoteQuery (term : String) : String :=
  let special (c : Char) : Bool := isWhitespace c || [':', '"', '(', ')', '\\'].contains c
  if term.toList.any special then
    "\"" ++ String.ofList (term.toList.flatMap fun c =>
      if c = '\\' ∨ c = '"' then ['\\', c] else [c]) ++ "\""
  else term

def headerQueryField (field : String) : Option String :=
  match field with
  | "subject" => some "subject"
  | "from" => some "from"
  | "to" => some "to"
  | "cc" => some "cc"
  | "bcc" => some "bcc"
  | "message-id" | "message_id" => some "message_id"
  | "reply-to" | "reply_to" => some "reply_to"
  | _ => none

def headerQueryString (field value : String) : Option String :=
  (headerQueryField field).map fun queryField => queryField ++ ":" ++ quoteQuery value

/-- The keys that are asked of no text, each with the flags it requires or forbids. -/
def flagKeys (key : String) : Option (List String × List String) :=
  match key with
  | "SEEN" => some (["\\Seen"], [])
  | "UNSEEN" => some ([], ["\\Seen"])
  | "ANSWERED" => some (["\\Answered"], [])
  | "UNANSWERED" => some ([], ["\\Answered"])
  | "FLAGGED" => some (["\\Flagged"], [])
  | "UNFLAGGED" => some ([], ["\\Flagged"])
  | "DELETED" => some (["\\Deleted"], [])
  | "UNDELETED" => some ([], ["\\Deleted"])
  | _ => none

/-- `expect_term`. -/
def expectTerm : List String → Except Error (String × List String)
  | [] => .error (.parse "missing SEARCH term")
  | token :: rest => .ok (token, rest)

def parseImapDate (lib : Libraries) (value : String) : Except Error Int :=
  match lib.parseImapDate value with
  | some day => .ok day
  | none => .error (.parse ("invalid IMAP date: " ++ value))

def parseSize (key value : String) : Except Error Nat :=
  match parseU64 value.toList with
  | some size => .ok size
  | none => .error (.parse (key ++ " requires a numeric size"))

/-- The query that looks for a term in the text fields. -/
def textQuery (term : String) : String :=
  " OR ".intercalate (["body", "subject", "from", "to", "cc", "bcc"].map fun field =>
    field ++ ":" ++ term)

/-- A key other than NOT, OR and UID, in upper case, and what follows it. -/
def parseKey (lib : Libraries) (key : String) (rest : List String) :
    Except Error (SearchKeys × List String) := do
  let plain : SearchKeys := { SearchKeys.all with matchAll := false }
  let field (name : String) : Except Error (SearchKeys × List String) := do
    let (term, rest) ← expectTerm rest
    pure ({ plain with queryString := some (name ++ ":" ++ quoteQuery term) }, rest)
  let date (set : Int → SearchKeys) : Except Error (SearchKeys × List String) := do
    let (term, rest) ← expectTerm rest
    let day ← parseImapDate lib term
    pure (set day, rest)
  match flagKeys key with
  | some (requiredFlags, forbiddenFlags) =>
      pure ({ plain with requiredFlags, forbiddenFlags }, rest)
  | none =>
      match key with
      | "ALL" => pure (SearchKeys.all, rest)
      | "SUBJECT" => field "subject"
      | "FROM" => field "from"
      | "TO" => field "to"
      | "CC" => field "cc"
      | "BCC" => field "bcc"
      | "HEADER" => do
          let (name, rest) ← expectTerm rest
          let (value, rest) ← expectTerm rest
          let lower := toAsciiLowercase name
          pure ({ plain with headerFilters := [(lower, value)]
                             queryString := headerQueryString lower value }, rest)
      | "RECENT" => pure ({ plain with recentOnly := true }, rest)
      | "NEW" => pure ({ plain with recentOnly := true, forbiddenFlags := ["\\Seen"] }, rest)
      | "OLD" => pure ({ plain with oldOnly := true }, rest)
      | "BODY" | "TEXT" => do
          let (term, rest) ← expectTerm rest
          pure ({ plain with queryString := some (textQuery (quoteQuery term)) }, rest)
      | "KEYWORD" => do
          let (keyword, rest) ← expectTerm rest
          pure ({ plain with requiredKeywords := [keyword] }, rest)
      | "UNKEYWORD" => do
          let (keyword, rest) ← expectTerm rest
          pure ({ plain with forbiddenKeywords := [keyword] }, rest)
      | "LARGER" => do
          let (term, rest) ← expectTerm rest
          let size ← parseSize key term
          pure ({ plain with largerThan := some size }, rest)
      | "SMALLER" => do
          let (term, rest) ← expectTerm rest
          let size ← parseSize key term
          pure ({ plain with smallerThan := some size }, rest)
      | "BEFORE" => date fun day => { plain with internalDateBefore := some day }
      | "SINCE" => date fun day => { plain with internalDateSince := some day }
      | "ON" => date fun day => { plain with internalDateOn := some day }
      | "SENTBEFORE" => date fun day => { plain with sentDateBefore := some day }
      | "SENTSINCE" => date fun day => { plain with sentDateSince := some day }
      | "SENTON" => date fun day => { plain with sentDateOn := some day }
      | other => pure ({ plain with queryString := some other }, rest)

/-- One term and what follows it. Every call takes a token, so the number of tokens is fuel enough
and an empty list is the only way to run out. -/
def parseTerm (lib : Libraries) : Nat → List String → Except Error (SearchExpr × List String)
  | _, [] => .error (.parse "unexpected end of SEARCH criteria")
  | 0, _ => .error (.parse "unexpected end of SEARCH criteria")
  | fuel + 1, token :: rest =>
      if eqIgnoreAsciiCase token "NOT" then do
        let (inner, rest) ← parseTerm lib fuel rest
        pure (.not inner, rest)
      else if eqIgnoreAsciiCase token "OR" then do
        let (left, rest) ← parseTerm lib fuel rest
        let (right, rest) ← parseTerm lib fuel rest
        pure (.or left right, rest)
      else if eqIgnoreAsciiCase token "UID" then
        match rest with
        | [] => throw (.parse "UID requires a sequence set")
        | value :: rest => do
            let set ← parseUidSet value
            pure (.leaf { SearchKeys.all with uidFilter := some set, matchAll := false }, rest)
      else do
        let (keys, rest) ← parseKey lib (toAsciiUppercase token) rest
        pure (.leaf keys, rest)

/-- The loop of `parse`: the merged leaves and the other terms. -/
def parseTerms (lib : Libraries) :
    Nat → List String → SearchKeys → List SearchExpr → Except Error (SearchKeys × List SearchExpr)
  | _, [], flat, terms => .ok (flat, terms)
  | 0, _, flat, terms => .ok (flat, terms)
  | fuel + 1, tokens, flat, terms => do
      let (term, rest) ← parseTerm lib tokens.length tokens
      match term with
      | .leaf keys => parseTerms lib fuel rest (if keys.isIdentity then flat else flat.merge keys) terms
      | other => parseTerms lib fuel rest flat (terms ++ [other])

/-- The tree of the terms that are not leaves. -/
def joinTerms : List SearchExpr → Option SearchExpr
  | [] => none
  | [term] => some term
  | terms => some (.and terms)

def fromImapArgs (lib : Libraries) (args : List String) : Except Error SearchQuery := do
  if args.isEmpty then
    pure ⟨SearchKeys.all, none⟩
  else
    let (flat, terms) ← parseTerms lib args.length args { SearchKeys.all with matchAll := false } []
    if terms.isEmpty && flat.isIdentity then pure ⟨SearchKeys.all, none⟩
    else pure ⟨flat, joinTerms terms⟩

/-! ## The search backend -/

/-- One pair of parentheses after the other, as far as `fuel` goes; a text has at most half as many
pairs as it has characters. -/
def stripOuterParens : Nat → List Char → List Char
  | 0, text => trim text
  | fuel + 1, text =>
      match trim text with
      | '(' :: rest => if rest.getLast? = some ')' then stripOuterParens fuel rest.dropLast else '(' :: rest
      | text => text

/-- The most documents that a query of the index returns. -/
def topDocsLimit : Nat := 1000

/-- `TopDocs::with_limit`: the first documents of those that a query finds. -/
def topDocs (lib : Libraries) (documents : List SearchDocument) (query : Option String)
    (found : SearchDocument → Bool) : List SearchDocument :=
  ((documents.filter found).insertionSort fun a b =>
    lib.rank query documents a ≤ lib.rank query documents b).take topDocsLimit

/-- `collect_query_uids`: the UIDs of the first documents of a query that are within the UID filter. -/
def collectQueryUids (lib : Libraries) (documents : List SearchDocument) (uidFilter : Option UidSet)
    (query : Option String) (found : SearchDocument → Bool) : List Nat :=
  (((topDocs lib documents query found).filter fun document =>
    uidFilter.all (·.contains document.uid)).map (·.uid)).insertionSort (· ≤ ·)

def parseIndexQuery (lib : Libraries) (query : String) : Except Error (SearchDocument → Bool) :=
  match lib.parseQuery query with
  | .ok found => .ok found
  | .error err => .error (.parse ("failed to parse search query: " ++ err))

def searchFlat (lib : Libraries) (documents : List SearchDocument) (keys : SearchKeys) :
    Except Error (List Nat) :=
  let every := collectQueryUids lib documents keys.uidFilter none fun _ => true
  let matching (query : String) : Except Error (List Nat) := do
    let found ← parseIndexQuery lib query
    pure (collectQueryUids lib documents keys.uidFilter (some query) found)
  match keys.queryString with
  | none => .ok every
  | some queryString =>
      if keys.matchAll || queryString.isEmpty then .ok every
      else
        let trimmed := trim queryString.toList
        match (stripPrefix "NOT ".toList trimmed).or (stripPrefix "NOT(".toList trimmed) with
        | some inner => do
            let excluded ← matching (String.ofList (stripOuterParens inner.length (trim inner)))
            pure (every.filter fun uid => !excluded.contains uid)
        | none => matching (String.ofList trimmed)

mutual
def searchExprUids (lib : Libraries) (documents : List SearchDocument) :
    SearchExpr → Except Error (List Nat)
  | .leaf keys => searchFlat lib documents keys
  | .and children => searchAllUids lib documents children
  | .or left right => do
      let left ← searchExprUids lib documents left
      let right ← searchExprUids lib documents right
      pure (((left ++ right).insertionSort (· ≤ ·)).destutter (· ≠ ·))
  | .not inner => do
      let every ← searchFlat lib documents SearchKeys.all
      let excluded ← searchExprUids lib documents inner
      pure (every.filter fun uid => !excluded.contains uid)
def searchAllUids (lib : Libraries) (documents : List SearchDocument) :
    List SearchExpr → Except Error (List Nat)
  | [] => .ok []
  | [child] => searchExprUids lib documents child
  | child :: children => do
      let uids ← searchExprUids lib documents child
      let others ← searchAllUids lib documents children
      pure (uids.filter others.contains)
end

/-- `SearchBackend::search` of the index of one mailbox name. -/
def searchDocuments (lib : Libraries) (documents : List SearchDocument) (query : SearchQuery) :
    Except Error (List Nat) := do
  let uids ← match query.expr with
    | some expr => do
        let base ← searchFlat lib documents query.keys
        let uids ← searchExprUids lib documents expr
        pure (uids.filter base.contains)
    | none => searchFlat lib documents query.keys
  pure ((uids.insertionSort (· ≤ ·)).destutter (· ≠ ·))

end Search
end ImapCache
