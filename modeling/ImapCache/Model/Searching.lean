import ImapCache.Model.RawFetch

/-!
# Searching

What SEARCH, SORT and THREAD compute: the messages of a mailbox are found by the search index or,
without one, by a text match on what the database holds; then each is checked against the keys of
the query.
-/

namespace ImapCache.Search
open Lib Prog Protocol

/-! ## Requests -/

structure SearchReturnOptions where
  count : Bool
  min : Bool
  max : Bool
  all : Bool
deriving DecidableEq, Repr

def parseSearchReturnOptions (value : String) : Except Error SearchReturnOptions :=
  (splitWhitespace (stripParens (trim value.toList))).foldlM (fun options token =>
    match toAsciiUppercase token with
    | "COUNT" => .ok { options with count := true }
    | "MIN" => .ok { options with min := true }
    | "MAX" => .ok { options with max := true }
    | "ALL" => .ok { options with all := true }
    | other => .error (.parse ("unsupported ESEARCH return option: " ++ other)))
    ⟨false, false, false, false⟩

/-- The options and charsets before the criteria, as many as there are. -/
def parseSearchRequest (lib : Libraries) (options : Option SearchReturnOptions) :
    List String → Except Error (SearchQuery × Option SearchReturnOptions)
  | [] => (fromImapArgs lib []).map fun query => (query, options)
  | [arg] =>
      if eqIgnoreAsciiCase arg "RETURN" then .error (.parse "RETURN requires options")
      else if eqIgnoreAsciiCase arg "CHARSET" then .error (.parse "CHARSET requires a value")
      else (fromImapArgs lib [arg]).map fun query => (query, options)
  | arg :: value :: rest =>
      if eqIgnoreAsciiCase arg "RETURN" then do
        let options ← parseSearchReturnOptions value
        parseSearchRequest lib (some options) rest
      else if eqIgnoreAsciiCase arg "CHARSET" then
        if ["UTF-8", "US-ASCII"].contains (toAsciiUppercase value) then
          parseSearchRequest lib options rest
        else .error (.imapCommand ("BADCHARSET unsupported SEARCH charset: " ++ value))
      else (fromImapArgs lib (arg :: value :: rest)).map fun query => (query, options)

inductive SortKey where
  | date
  | subject
  | sender
  | recipient
  | cc
  | size
  | arrival
  | uid
deriving DecidableEq, Repr

def parseSortToken (request : List SortKey × Bool) (token : String) :
    Except Error (List SortKey × Bool) :=
  let push (key : SortKey) : Except Error (List SortKey × Bool) := .ok (request.1 ++ [key], request.2)
  match toAsciiUppercase token with
  | "DATE" => push .date
  | "SUBJECT" => push .subject
  | "FROM" => push .sender
  | "TO" => push .recipient
  | "CC" => push .cc
  | "SIZE" => push .size
  | "ARRIVAL" => push .arrival
  | "UID" => push .uid
  | "REVERSE" => .ok (request.1, true)
  | other => .error (.parse ("unsupported SORT key: " ++ other))

/-- `trim_start_matches` of one character. -/
def trimStartChar (c : Char) (text : List Char) : List Char := text.dropWhile (· == c)

/-- `trim_end_matches` of one character. -/
def trimEndChar (c : Char) (text : List Char) : List Char :=
  (text.reverse.dropWhile (· == c)).reverse

def trimChar (c : Char) (text : List Char) : List Char := trimEndChar c (trimStartChar c text)

def trimStart (text : List Char) : List Char := text.dropWhile isWhitespace

structure SortRequest where
  sortKeys : List SortKey
  reverse : Bool
  query : SearchQuery

def parseSortRequest (lib : Libraries) (args : List String) : Except Error (Option SortRequest) :=
  match args with
  | keys :: _ :: criterion :: criteria => do
      let tokens := splitWhitespace (trimEndChar ')' (trimStartChar '(' (trim keys.toList)))
      if tokens.isEmpty then throw (.parse "SORT requires at least one sort key")
      else
        let (sortKeys, reverse) ← tokens.foldlM parseSortToken ([], false)
        let query ← fromImapArgs lib (criterion :: criteria)
        pure (some ⟨sortKeys, reverse, query⟩)
  | _ => .ok none

inductive ThreadAlgorithm where
  | orderedSubject
  | references
deriving DecidableEq, Repr

def parseThreadRequest (lib : Libraries) (args : List String) :
    Except Error (Option (ThreadAlgorithm × SearchQuery)) :=
  match args with
  | algorithm :: _ :: criterion :: criteria => do
      let algorithm ← match toAsciiUppercase algorithm with
        | "ORDEREDSUBJECT" => .ok .orderedSubject
        | "REFERENCES" => .ok .references
        | other => .error (.parse ("unsupported THREAD algorithm: " ++ other))
      let query ← fromImapArgs lib (criterion :: criteria)
      pure (some (algorithm, query))
  | _ => .ok none

/-! ## The keys of a query -/

def containsCaseInsensitive (values : List String) (needle : String) : Bool :=
  values.any (eqIgnoreAsciiCase · needle)

/-- `haystack.contains(needle)`. -/
def containsText (haystack needle : List Char) : Bool :=
  (Slice.findOffset (fun rest => needle.isPrefixOf rest) haystack).isSome

def lowerChars (text : String) : List Char := (toAsciiLowercase text).toList

def containsCaseInsensitiveJson (lib : Libraries) (value : Json) (needle : String) : Bool :=
  containsText (lowerChars (lib.jsonToString value)) (lowerChars needle)

/-- The document that a header field is looked for in. -/
def headerValue (view : MailboxMessageView) (field : String) : Option Json :=
  match field with
  | "subject" => view.subject.map Json.str
  | "reply-to" | "reply_to" => view.envelopeJson.get "reply_to"
  | "message-id" | "message_id" => view.envelopeJson.get "message_id"
  | other => view.envelopeJson.get other

def matchesHeaderFilters (lib : Libraries) (view : MailboxMessageView)
    (headerFilters : List (String × String)) : Bool :=
  headerFilters.all fun filter =>
    (headerValue view filter.1).any fun value => containsCaseInsensitiveJson lib value filter.2

/-- `date_naive`: the day of a time. -/
def dayOf (time : Int) : Int := timestamp time / 86400

def sentDate (view : MailboxMessageView) : Int :=
  view.sentDate.getD (view.internalDate.getD view.createdAt)

def matchesSearchLeaf (lib : Libraries) (view : MailboxMessageView) (keys : SearchKeys) : Bool :=
  let internalDay := dayOf (Responses.internalDate view)
  let sentDay := dayOf (sentDate view)
  let size := i64AsU64 view.sizeOctets
  keys.uidFilter.all (·.contains (i64AsU64 view.localUid)) &&
    keys.requiredFlags.all (containsCaseInsensitive view.flags) &&
    !keys.forbiddenFlags.any (containsCaseInsensitive view.flags) &&
    keys.requiredKeywords.all (containsCaseInsensitive view.keywords) &&
    !keys.forbiddenKeywords.any (containsCaseInsensitive view.keywords) &&
    matchesHeaderFilters lib view keys.headerFilters &&
    keys.largerThan.all (· < size) && keys.smallerThan.all (size < ·) &&
    keys.internalDateBefore.all (internalDay < ·) && keys.internalDateOn.all (internalDay == ·) &&
    keys.internalDateSince.all (· ≤ internalDay) && keys.sentDateBefore.all (sentDay < ·) &&
    keys.sentDateOn.all (sentDay == ·) && keys.sentDateSince.all (· ≤ sentDay)

mutual
def matchesSearchExpr (lib : Libraries) (view : MailboxMessageView) : SearchExpr → Bool
  | .leaf keys => matchesSearchLeaf lib view keys
  | .and children => matchesSearchExprs lib view children
  | .or left right => matchesSearchExpr lib view left || matchesSearchExpr lib view right
  | .not inner => !matchesSearchExpr lib view inner
def matchesSearchExprs (lib : Libraries) (view : MailboxMessageView) : List SearchExpr → Bool
  | [] => true
  | child :: children => matchesSearchExpr lib view child && matchesSearchExprs lib view children
end

def matchesSearchView (lib : Libraries) (view : MailboxMessageView) (query : SearchQuery) : Bool :=
  matchesSearchLeaf lib view query.keys && query.expr.all (matchesSearchExpr lib view)

/-! ## The text match without an index -/

/-- `u8::is_ascii_whitespace`. -/
def isAsciiSpace (byte : UInt8) : Bool := [32, 9, 10, 12, 13].contains byte

/-- The depth of parentheses after a byte. -/
def byteDepth (depth : Nat) (byte : UInt8) : Nat :=
  if byte = 40 then depth + 1 else if byte = 41 then depth - 1 else depth

/-- The texts before and after an operator that starts at an index. -/
def splitAround (expr : List Char) (index stop : Nat) : Except Panic (List Char × List Char) := do
  let left ← textUpTo expr index
  let right ← textFrom expr stop
  pure (trim (trimChar '(' (trim left)), trim (trimChar ')' (trim right)))

/-- The loop over the bytes of an expression from an index on; every round takes a byte. -/
def scanTopLevelBool (expr : List Char) (bytes : Bytes) (operator : String) :
    Nat → Nat → Nat → Except Panic (Option (List Char × List Char))
  | 0, _, _ => pure none
  | fuel + 1, index, depth => do
      let stop := index + operator.utf8ByteSize
      if bytes.length < stop then pure none
      else
        let depth := byteDepth depth (bytes.getD index 0)
        if depth ≠ 0 then scanTopLevelBool expr bytes operator fuel (index + 1) depth
        else
          let candidate ← textBetween expr index stop
          let leftOk := index == 0 || isAsciiSpace (bytes.getD (index - 1) 0)
          let rightOk := stop ≥ bytes.length || isAsciiSpace (bytes.getD stop 0)
          if eqIgnoreAsciiCase (String.ofList candidate) operator && leftOk && rightOk then
            some <$> splitAround expr index stop
          else scanTopLevelBool expr bytes operator fuel (index + 1) depth

def splitTopLevelBool (expr : List Char) (operator : String) :
    Except Panic (Option (List Char × List Char)) :=
  let bytes := Mutations.utf8 (String.ofList expr)
  scanTopLevelBool expr bytes operator bytes.length 0 0

def extractSearchTerms (expr : List Char) : List (List Char) :=
  ((expr.splitOnP (!·.isAlphanum)).map (·.map Char.toLower)).filter fun term =>
    !term.isEmpty &&
      !(["subject", "body", "from", "to", "cc", "text", "all"].contains (String.ofList term))

/-- Everything that is known of a message as one text. -/
def searchHaystack (lib : Libraries) (view : MailboxMessageView) : List Char :=
  lowerChars (Responses.join [view.subject.getD "", view.textPreview.getD "",
    lib.jsonToString view.envelopeJson, lib.jsonToString view.bodystructureJson])

/-- The text match; either side of an operator is shorter than the whole, so that the length of the
text is fuel enough. -/
def matchesText (lib : Libraries) (view : MailboxMessageView) : Nat → List Char → Except Panic Bool
  | 0, _ => pure true
  | fuel + 1, text => do
      let normalized := trim text
      if normalized.isEmpty then pure true
      else
        match ← splitTopLevelBool normalized "OR" with
        | some (left, right) => do
            if ← matchesText lib view fuel left then pure true else matchesText lib view fuel right
        | none =>
            match stripPrefix "NOT ".toList normalized with
            | some inner => do
                let found ← matchesText lib view fuel (trim inner)
                pure !found
            | none =>
                pure ((extractSearchTerms normalized).all (containsText (searchHaystack lib view)))

def matchesSearchTextFallback (lib : Libraries) (view : MailboxMessageView)
    (queryString : Option String) : Except Panic Bool :=
  match queryString with
  | none => pure true
  | some queryString => matchesText lib view (queryString.length + 1) queryString.toList

/-! ## SEARCH -/

def viewUid (view : MailboxMessageView) : Nat := i64AsU64 view.localUid

/-- The sorted keys of the map from UIDs to views. -/
def viewUids (views : List MailboxMessageView) : List Nat :=
  ((views.map viewUid).insertionSort (· ≤ ·)).destutter (· ≠ ·)

/-- The entry of the map, which the last view of a UID has made. -/
def viewAt (views : List MailboxMessageView) (uid : Nat) : Option MailboxMessageView :=
  (views.filter (viewUid · == uid)).getLast?

def sequenceNumberForView (views : List MailboxMessageView) (uid : Nat) : Option Nat :=
  (views.findIdx? (viewUid · == uid)).map (· + 1)

def recentMailboxUids (views : List MailboxMessageView) (recentCount : Int) : List Nat :=
  (((views.map viewUid).insertionSort (· ≤ ·)).reverse).take recentCount.toNat

/-- What one candidate contributes to the results. -/
def candidateResult (lib : Libraries) (search : Bool) (query : SearchQuery) (uidResults : Bool)
    (views : List MailboxMessageView) (recentCount : Int) (uid : Nat) : Except Panic (Option Nat) := do
  let recent := (recentMailboxUids views recentCount).contains uid
  match viewAt views uid with
  | none => pure none
  | some view =>
      if (query.keys.recentOnly && !recent) || (query.keys.oldOnly && recent) then pure none
      else if matchesSearchView lib view query then do
        let found ← if search then pure true
          else matchesSearchTextFallback lib view query.keys.queryString
        pure (if found then
          some (if uidResults then uid else (sequenceNumberForView views uid).getD uid) else none)
      else pure none

/-- Whether the index is asked for the candidates. -/
def asksIndex (search : Bool) (query : SearchQuery) : Bool :=
  search && query.expr.isNone && (query.keys.queryString.isSome || query.keys.uidFilter.isSome)

/-- What a search needs besides its query. -/
structure Searcher where
  lib : Libraries
  repository : Bool
  search : Bool
  accountId : Option Int
  mailboxName : String
  connection : Nat

def searchViews (searcher : Searcher) (query : SearchQuery) (uidResults : Bool)
    (mailbox : Row Mailbox) (views : List MailboxMessageView) : Action (List Nat) := do
  let candidates ← if asksIndex searcher.search query then
      await (.searchIndex searcher.mailboxName query)
    else pure (viewUids views)
  let results ← orPanic (candidates.mapM (candidateResult searcher.lib searcher.search query
    uidResults views mailbox.data.recentCount))
  pure (((results.filterMap id).insertionSort (· ≤ ·)).destutter (· ≠ ·))

/-- The mailbox of a search and its messages; nothing without an account or a mailbox. -/
def withViews {α : Type} (searcher : Searcher) (nothing : α)
    (body : Int → Row Mailbox → List MailboxMessageView → Action α) : Action α := do
  let some accountId := searcher.accountId | pure nothing
  let some mailbox ← await (.findMailbox accountId searcher.mailboxName) | pure nothing
  let views ← await (.listMailboxMessageViews mailbox.id)
  body accountId mailbox views

def executeSearch (searcher : Searcher) (query : SearchQuery) (uidResults : Bool) :
    Action (List Nat) :=
  if searcher.repository then
    withViews searcher [] fun _ mailbox views => searchViews searcher query uidResults mailbox views
  else if searcher.search then await (.searchIndex searcher.mailboxName query)
  else pure []

def formatEsearchSummary (results : List Nat) (options : SearchReturnOptions) : String :=
  let part (wanted : Bool) (text : Option String) : String :=
    if wanted then text.getD "" else ""
  part options.count (some (" COUNT " ++ toString results.length)) ++
    part options.min (results.min?.map fun uid => " MIN " ++ toString uid) ++
    part options.max (results.max?.map fun uid => " MAX " ++ toString uid) ++
    part options.all (some (" ALL " ++ formatNumberSet results))

/-! ## SORT -/

def sortDateKey (view : MailboxMessageView) : Int :=
  timestamp ((view.sentDate.or view.internalDate).getD view.createdAt)

def sortTextKey (value : Option String) : String := toAsciiLowercase (value.getD "")

/-- The first address of a field of the envelope. -/
def sortAddressKey (value : Json) (field : String) : String :=
  ((((value.get field).bind Json.asArray).bind fun items =>
    items.findSome? fun item => Responses.textAt item "address").map toAsciiLowercase).getD ""

def compareSortKey (left right : MailboxMessageView) (key : SortKey) : Ordering :=
  let address (field : String) : Ordering :=
    compare (sortAddressKey left.envelopeJson field) (sortAddressKey right.envelopeJson field)
  match key with
  | .date => compare (sortDateKey left) (sortDateKey right)
  | .subject => compare (sortTextKey left.subject) (sortTextKey right.subject)
  | .sender => address "from"
  | .recipient => address "to"
  | .cc => address "cc"
  | .size => compare left.sizeOctets right.sizeOctets
  | .arrival => compare left.createdAt right.createdAt
  | .uid => compare left.localUid right.localUid

def compareSortRows (sortKeys : List SortKey) (left right : MailboxMessageView) : Ordering :=
  sortKeys.foldr (fun key rest => (compareSortKey left right key).then rest)
    (compare left.localUid right.localUid)

/-- The views that a search finds, with all the views of the mailbox. -/
def findViews (searcher : Searcher) (query : SearchQuery) (views : List MailboxMessageView) :
    Action (List MailboxMessageView) := do
  let uids ← executeSearch searcher query true
  pure (uids.filterMap (viewAt views))

def executeSort (searcher : Searcher) (request : SortRequest) (uidResults : Bool) :
    Action (List Nat) :=
  if searcher.repository then
    withViews searcher [] fun _ _ views => do
      let rows ← findViews searcher request.query views
      let order (left right : MailboxMessageView) : Ordering :=
        let ordering := compareSortRows request.sortKeys left right
        if request.reverse then ordering.swap else ordering
      let sorted := rows.insertionSort fun left right => (order left right).isLE
      pure (sorted.map fun view =>
        if uidResults then viewUid view
        else (sequenceNumberForView views (viewUid view)).getD (viewUid view))
  else if searcher.search then do
    let uids ← await (.searchIndex searcher.mailboxName request.query)
    pure (uids.insertionSort (· ≤ ·))
  else pure []

/-! ## THREAD -/

/-- A `Re:`, `Fwd:` or `Fw:` is taken off and the spaces after it. -/
def stripThreadSubjectPrefix (value : List Char) : Except Panic (Option (List Char)) :=
  let lower := value.map Char.toLower
  match ["re:", "fwd:", "fw:"].findSome? fun head => stripPrefix head.toList lower with
  | some stripped => do
      let rest ← textFrom value (Slice.byteLength value - Slice.byteLength stripped)
      pure (some (trimStart rest))
  | none => pure none

/-- Every round takes a character, so that the length of the subject is fuel enough. -/
def stripThreadSubject : Nat → List Char → Except Panic (List Char)
  | 0, value => pure value
  | fuel + 1, value => do
      match ← stripThreadSubjectPrefix value with
      | none => pure value
      | some candidate =>
          if candidate = value then pure value else stripThreadSubject fuel (trimStart candidate)

def normalizeThreadSubject (subject : Option String) : Except Panic String := do
  let value := trim (subject.getD "").toList
  let stripped ← stripThreadSubject value.length value
  pure (toAsciiLowercase (String.ofList stripped))

inductive ThreadNode where
  | node (uid : Nat) (sortSubject : String) (sortDate : Int) (children : List ThreadNode)

namespace ThreadNode

def uid : ThreadNode → Nat
  | node uid .. => uid

def withChildren (children : List ThreadNode) : ThreadNode → ThreadNode
  | node uid sortSubject sortDate _ => node uid sortSubject sortDate children

/-- Date, subject and UID, in this order. -/
def order : ThreadNode → ThreadNode → Ordering
  | node uid sortSubject sortDate _, node uid' sortSubject' sortDate' _ =>
      (compare sortDate sortDate').then ((compare sortSubject sortSubject').then (compare uid uid'))

end ThreadNode

/-- A message with the key of its subject. -/
abbrev KeyedView := String × MailboxMessageView

def keyedOrder (a b : KeyedView) : Ordering :=
  (compare a.1 b.1).then ((compare (sortDateKey a.2) (sortDateKey b.2)).then
    (compare a.2.localUid b.2.localUid))

def groupOrder (a b : List KeyedView) : Bool :=
  match a, b with
  | first :: _, first' :: _ => (keyedOrder first first').isLE
  | _, _ => true

/-- The first message of a group with the others below it. -/
def threadGroup (group : List KeyedView) : Except Panic ThreadNode :=
  let leaf (entry : KeyedView) : ThreadNode :=
    .node (viewUid entry.2) entry.1 (sortDateKey entry.2) []
  match group.insertionSort fun a b => ((compare (sortDateKey a.2) (sortDateKey b.2)).then
      (compare a.2.localUid b.2.localUid)).isLE with
  | [] => .error (.expectFailed "unwrap on a None value")
  | root :: others => pure ((leaf root).withChildren (others.map leaf))

def threadOrderedSubject (views : List MailboxMessageView) : Except Panic (List ThreadNode) := do
  let keyed ← views.mapM fun view => do
    let key ← normalizeThreadSubject view.subject
    pure (key, view)
  let sorted := keyed.insertionSort fun a b => (keyedOrder a b).isLE
  let groups := (sorted.splitBy fun a b => a.1 == b.1).insertionSort fun a b => groupOrder a b
  groups.mapM threadGroup

structure ThreadMessage where
  uid : Nat
  subjectKey : String
  sortDate : Int
  messageId : Option String
  references : List String
  inReplyTo : List String
deriving DecidableEq, Repr

namespace ThreadMessage

def leaf (message : ThreadMessage) : ThreadNode :=
  .node message.uid message.subjectKey message.sortDate []

def parent (message : ThreadMessage) : Option String :=
  message.references.getLast?.or message.inReplyTo.getLast?

end ThreadMessage

/-- The node of a message id, which the last message of that id has made. -/
def nodeById (messages : List ThreadMessage) (id : String) : Option ThreadNode :=
  ((messages.filter (·.messageId == some id)).getLast?).map ThreadMessage.leaf

/-- The parent that a message is put below: another message that is there. -/
def linkedParent (messages : List ThreadMessage) (message : ThreadMessage) : Option String :=
  message.parent.filter fun parent =>
    some parent != message.messageId && (nodeById messages parent).isSome

def childIds (messages : List ThreadMessage) (parent : String) : List String :=
  (messages.filter fun message => linkedParent messages message == some parent).filterMap
    (·.messageId)

def hasParent (messages : List ThreadMessage) (id : String) : Bool :=
  messages.any fun message =>
    message.messageId == some id && (linkedParent messages message).isSome

def messageIds (messages : List ThreadMessage) : List String :=
  sortedTexts (messages.filterMap (·.messageId))

theorem mem_messageIds_of_nodeById {messages : List ThreadMessage} {id : String} {node : ThreadNode}
    (found : nodeById messages id = some node) : id ∈ messages.filterMap (·.messageId) := by
  obtain ⟨message, last, -⟩ := Option.map_eq_some_iff.mp found
  have member := List.mem_of_getLast? last
  rw [List.mem_filter] at member
  exact List.mem_filterMap.mpr ⟨message, member.1, by simpa using member.2⟩

/-- The ids that a walk has not come through. -/
def unvisited (messages : List ThreadMessage) (visited : List String) : List String :=
  (messages.filterMap (·.messageId)).filter fun id => !visited.contains id

theorem unvisited_cons_lt {messages : List ThreadMessage} {visited : List String} {id : String}
    (known : id ∈ messages.filterMap (·.messageId)) (new : visited.contains id = false) :
    (unvisited messages (id :: visited)).length < (unvisited messages visited).length := by
  have fewer : unvisited messages (id :: visited) = (unvisited messages visited).filter (· != id) := by
    simp only [unvisited, List.filter_filter]
    refine List.filter_congr fun other _ => ?_
    by_cases same : other = id <;> simp [same]
  rw [fewer]
  refine List.length_filter_lt_length_iff_exists.mpr ⟨id, ?_, by simp⟩
  exact List.mem_filter.mpr ⟨known, by simpa using new⟩

/-- A message is not expanded again below itself. -/
def buildThreadNode (messages : List ThreadMessage) (visited : List String) (id : String) :
    Except Panic ThreadNode :=
  match _found : nodeById messages id with
  | none => .error (.expectFailed "thread node exists")
  | some node =>
      if _seen : visited.contains id then pure node
      else do
        let children ← (childIds messages id).mapM (buildThreadNode messages (id :: visited))
        pure (node.withChildren children)
termination_by (unvisited messages visited).length
decreasing_by exact unvisited_cons_lt (mem_messageIds_of_nodeById _found) (by simpa using _seen)

mutual
def sortThreadNode : ThreadNode → ThreadNode
  | .node uid sortSubject sortDate children =>
      .node uid sortSubject sortDate
        ((sortThreadNodes children).insertionSort fun a b => (a.order b).isLE)
def sortThreadNodes : List ThreadNode → List ThreadNode
  | [] => []
  | node :: nodes => sortThreadNode node :: sortThreadNodes nodes
end

/-- The root that a message makes, if it makes one. -/
def threadRoot (messages : List ThreadMessage) (message : ThreadMessage) :
    Except Panic (Option ThreadNode) :=
  match message.messageId with
  | none => pure (some message.leaf)
  | some id =>
      if hasParent messages id then pure none else some <$> buildThreadNode messages [] id

def threadReferences (messages : List ThreadMessage) : Except Panic (List ThreadNode) := do
  let found ← messages.mapM (threadRoot messages)
  let roots := found.filterMap id
  let roots ← if roots.isEmpty then (messageIds messages).mapM (buildThreadNode messages [])
    else pure roots
  pure ((sortThreadNodes roots).insertionSort fun a b => (a.order b).isLE)

def threadLabel (uidResults : Bool) (views : List MailboxMessageView) (uid : Nat) : String :=
  toString (if uidResults then uid else (sequenceNumberForView views uid).getD uid)

mutual
def renderThreadNode (uidResults : Bool) (views : List MailboxMessageView) : ThreadNode → String
  | .node uid _ _ children =>
      let label := threadLabel uidResults views uid
      if children.isEmpty then label
      else "(" ++ label ++ " " ++ Responses.join (renderThreadForest uidResults views children) ++ ")"
def renderThreadForest (uidResults : Bool) (views : List MailboxMessageView) :
    List ThreadNode → List String
  | [] => []
  | node :: nodes => renderThreadNode uidResults views node :: renderThreadForest uidResults views nodes
end

def normalizeMessageId (value : String) : Option String :=
  let trimmed := trim (trimChar '>' (trimChar '<' (trim value.toList)))
  if trimmed.isEmpty then none else some (toAsciiLowercase (String.ofList trimmed))

def normalizeMessageIdList (value : Option String) : List String :=
  (splitWhitespace (value.getD "").toList).filterMap normalizeMessageId

def threadMessage (lib : Libraries) (view : MailboxMessageView) (raw : Bytes) :
    Action ThreadMessage := do
  match lib.threadHeaders raw with
  | .error err => throw (.parse ("failed to parse RFC822 message for threading: " ++ err))
  | .ok (messageId, references, inReplyTo) => do
      let subjectKey ← orPanic (normalizeThreadSubject view.subject)
      pure { uid := viewUid view, subjectKey, sortDate := sortDateKey view
             messageId := messageId.bind normalizeMessageId
             references := normalizeMessageIdList references
             inReplyTo := normalizeMessageIdList inReplyTo }

def loadThreadMessage (searcher : Searcher) (accountId : Int) (loaded : List ThreadMessage)
    (view : MailboxMessageView) : Action (List ThreadMessage) := do
  let raw ← RawFetch.loadRawFetchBytes
    ⟨searcher.lib, searcher.connection, accountId, searcher.mailboxName, view⟩ (.whole .full) none
  let raw ← orThrow raw (.storage "missing raw message for threading")
  let message ← threadMessage searcher.lib view raw
  pure (loaded ++ [message])

def executeThread (searcher : Searcher) (algorithm : ThreadAlgorithm) (query : SearchQuery)
    (uidResults : Bool) : Action (List String) :=
  if searcher.repository then
    withViews searcher [] fun accountId _ views => do
      let selected ← findViews searcher query views
      if selected.isEmpty then pure []
      else
        let forest ← match algorithm with
          | .orderedSubject => orPanic (threadOrderedSubject selected)
          | .references => do
              let messages ← selected.foldlM (loadThreadMessage searcher accountId) []
              orPanic (threadReferences messages)
        pure (renderThreadForest uidResults views forest)
  else pure []

end ImapCache.Search
