import ImapCache.Proof.CommandStream
import ImapCache.Proof.MailboxOrder
import ImapCache.Proof.RawFetchDispatch

/-!
# The items of a FETCH response

A FETCH without a raw item is answered by `format_fetch_response`, which knows the seven names of
metadata. One with a raw item is answered by `write_raw_fetch_response`: it sends the bytes of the
first raw item, and around them the metadata that `fetch_metadata_part` knows.
-/

namespace ImapCache.FetchItems
open Lib Prog Protocol RawFetch Session Commands
open CommandStream (utf8_append)
open RawFetchDispatch (splitRawItem_nil splitRawItem_cons)

/-! ## Data -/

def metadataNames : List String :=
  ["FLAGS", "UID", "RFC822.SIZE", "INTERNALDATE", "ENVELOPE", "BODYSTRUCTURE", "MODSEQ"]

def metadataValue (lib : Libraries) (view : MailboxMessageView) (item : String) : Option String :=
  match item with
  | "FLAGS" => some ("(" ++ Responses.join view.flags ++ ")")
  | "UID" => some (toString view.localUid)
  | "RFC822.SIZE" => some (toString view.sizeOctets)
  | "INTERNALDATE" =>
      some (Responses.quoteImapString (lib.formatImapDate (Responses.internalDate view)))
  | "ENVELOPE" => some (Responses.encodeEnvelope lib view.envelopeJson)
  | "BODYSTRUCTURE" => some (Responses.encodeBodystructure lib view.bodystructureJson)
  | "MODSEQ" => some ("(" ++ toString (view.modseq.getD 0) ++ ")")
  | _ => none

/-- What a response has under one name: a value, or a literal. -/
inductive Data where
  | metadata (name value : String)
  | literal (label : String) (bytes : Bytes)

/-- The data that answers an item; `loaded` are the bytes for a raw one. -/
def Data.Answers (lib : Libraries) (view : MailboxMessageView) (loaded : Bytes) (item : String) : Data → Prop
  | .metadata name value => name = item ∧ metadataValue lib view item = some value
  | .literal label bytes => label = item ∧ bytes = loaded

def shownMetadata (lib : Libraries) (view : MailboxMessageView) (names : List String) :
    List (String × String) :=
  names.filterMap fun name => (metadataValue lib view name).map fun value => (name, value)

def metadataText (data : String × String) : String := data.1 ++ " " ++ data.2

/-! ## The two encoders -/

def wants (items : List String) (name : String) : Bool :=
  if name = "RFC822.SIZE" then items.contains name || items.contains "RFC822" else items.contains name

def formattedNames (items : List String) : List String := metadataNames.filter (wants items)

theorem formatFetchResponse_shows (lib : Libraries) (sequence : Int) (view : MailboxMessageView)
    (items : List String) :
    Responses.formatFetchResponse lib sequence view items =
      "* " ++ toString sequence ++ " FETCH (" ++
        Responses.join ((shownMetadata lib view (formattedNames items)).map metadataText) ++ ")" := by
  have part : ∀ (wanted : Bool) (name value : String) (rest : List String),
      metadataValue lib view name = some value →
      (shownMetadata lib view (if wanted then name :: rest else rest)).map metadataText =
        (if wanted then [name ++ " " ++ value] else []) ++
          (shownMetadata lib view rest).map metadataText := by
    intro wanted name value rest known
    cases wanted with
    | false => rfl
    | true => simp [shownMetadata, known, metadataText]
  have labels : "FLAGS (" = "FLAGS" ++ (" " ++ "(") ∧ "UID " = "UID" ++ " " ∧
      "RFC822.SIZE " = "RFC822.SIZE" ++ " " ∧ "INTERNALDATE " = "INTERNALDATE" ++ " " ∧
      "ENVELOPE " = "ENVELOPE" ++ " " ∧ "BODYSTRUCTURE " = "BODYSTRUCTURE" ++ " " ∧
      "MODSEQ (" = "MODSEQ" ++ (" " ++ "(") := by decide
  obtain ⟨flags, uid, size, date, envelope, bodystructure, modseq⟩ := labels
  unfold formattedNames metadataNames Responses.formatFetchResponse
  simp only [List.filter_cons, List.filter_nil]
  rw [part _ _ _ _ rfl, part _ _ _ _ rfl, part _ _ _ _ rfl, part _ _ _ _ rfl, part _ _ _ _ rfl,
    part _ _ _ _ rfl, part _ _ _ _ rfl, flags, uid, size, date, envelope, bodystructure, modseq]
  simp only [String.append_assoc, List.append_assoc]
  simp [wants, shownMetadata]

theorem metadataValue_eq_none_iff (lib : Libraries) (view : MailboxMessageView) (item : String) :
    metadataValue lib view item = none ↔ item ∉ metadataNames := by
  unfold metadataValue
  constructor
  · intro unknown
    split at unknown
    case h_8 flags uid size date envelope bodystructure modseq =>
      simp only [metadataNames, List.mem_cons, List.not_mem_nil, or_false, not_or]
      exact ⟨flags, uid, size, date, envelope, bodystructure, modseq⟩
    all_goals cases unknown
  · intro other
    split
    case h_8 => rfl
    all_goals exact absurd (by decide) other

theorem fetchMetadataPart_eq (lib : Libraries) (view : MailboxMessageView) (item : String) :
    fetchMetadataPart lib view item = if item = "MODSEQ" then none
      else (metadataValue lib view item).map fun value => metadataText (item, value) := by
  unfold fetchMetadataPart
  split
  case h_7 flags uid size date envelope bodystructure =>
    by_cases modseq : item = "MODSEQ"
    · rw [if_pos modseq]
    · have unknown : metadataValue lib view item = none := by
        rw [metadataValue_eq_none_iff]
        simp only [metadataNames, List.mem_cons, List.not_mem_nil, or_false, not_or]
        exact ⟨flags, uid, size, date, envelope, bodystructure, modseq⟩
      rw [if_neg modseq, unknown, Option.map_none]
  case h_1 =>
    have label : "FLAGS (" = "FLAGS" ++ " " ++ "(" := by decide
    rw [label]
    simp only [metadataValue, metadataText, String.append_assoc]
    rfl
  all_goals simp [metadataValue, metadataText]

def rawNames (items : List String) : List String := items.filter (· ≠ "MODSEQ")

theorem filterMap_fetchMetadataPart (lib : Libraries) (view : MailboxMessageView)
    (items : List String) :
    items.filterMap (fetchMetadataPart lib view) =
      (shownMetadata lib view (rawNames items)).map metadataText := by
  unfold shownMetadata rawNames
  rw [List.map_filterMap, List.filterMap_filter]
  congr 1
  funext item
  rw [fetchMetadataPart_eq]
  by_cases modseq : item = "MODSEQ"
  · simp [modseq]
  · simp [modseq, Function.comp_def]

/-! ## A response -/

/-- What the response for a message shows; `bytes` were loaded for the raw item, if there is one. -/
def shown (lib : Libraries) (view : MailboxMessageView) (items : List String)
    (raw : Option RawItems) (bytes : Bytes) : List Data :=
  let metadata (names : List String) : List Data :=
    (shownMetadata lib view names).map fun data => .metadata data.1 data.2
  match raw with
  | none => metadata (formattedNames items)
  | some raw =>
      metadata (rawNames raw.before) ++ .literal raw.request.label bytes :: metadata (rawNames raw.after)

def Data.bytes : Data → Bytes
  | .metadata name value => Mutations.utf8 (metadataText (name, value))
  | .literal label bytes =>
      Mutations.utf8 (label ++ " \x7b" ++ toString bytes.length ++ "\x7d\r\n") ++ bytes

/-- A response with the given data, up to how it ends. -/
def render (sequence : Int) (data : List Data) (stop : String) : Bytes :=
  Mutations.utf8 ("* " ++ toString sequence ++ " FETCH (") ++
    [32].intercalate (data.map Data.bytes) ++ Mutations.utf8 stop

theorem utf8_join (texts : List String) :
    Mutations.utf8 (Responses.join texts) = [32].intercalate (texts.map Mutations.utf8) := by
  unfold Responses.join
  induction texts with
  | nil => rfl
  | cons text texts ih =>
      cases texts with
      | nil => simp
      | cons next rest =>
          have space : Mutations.utf8 " " = [32] := by decide
          rw [String.intercalate_cons_cons, utf8_append, utf8_append, ih, space]
          simp

theorem intercalate_append {before after : List Bytes} (some : before ≠ []) (others : after ≠ []) :
    [32].intercalate (before ++ after) = [32].intercalate before ++ [32] ++ [32].intercalate after := by
  induction before with
  | nil => exact absurd rfl some
  | cons first before ih =>
      cases before with
      | nil => simp [List.intercalate_cons_of_ne_nil others]
      | cons next rest =>
          rw [List.cons_append, List.cons_append, List.intercalate_cons_cons,
            List.intercalate_cons_cons, ← List.cons_append, ih (List.cons_ne_nil _ _)]
          simp

theorem bytes_metadata (lib : Libraries) (view : MailboxMessageView) (names : List String) :
    ((shownMetadata lib view names).map fun data => Data.metadata data.1 data.2).map Data.bytes =
      ((shownMetadata lib view names).map metadataText).map Mutations.utf8 := by
  rw [List.map_map, List.map_map]
  rfl

theorem formatFetchResponse_renders (lib : Libraries) (sequence : Int) (view : MailboxMessageView)
    (items : List String) (bytes : Bytes) :
    Mutations.utf8 (Responses.formatFetchResponse lib sequence view items) =
      render sequence (shown lib view items none bytes) ")" := by
  rw [formatFetchResponse_shows, utf8_append, utf8_append, utf8_join, ← bytes_metadata]
  rfl

theorem intercalate_around (before after : List String) (literal : Bytes) :
    [32].intercalate (before.map Mutations.utf8 ++ literal :: after.map Mutations.utf8) =
      Mutations.utf8 (if before.isEmpty then "" else Responses.join before ++ " ") ++ literal ++
        Mutations.utf8 (if after.isEmpty then "" else " " ++ Responses.join after) := by
  have space : Mutations.utf8 " " = [32] := by decide
  have empty : Mutations.utf8 "" = [] := by decide
  have behind : [32].intercalate (literal :: after.map Mutations.utf8) =
      literal ++ Mutations.utf8 (if after.isEmpty then "" else " " ++ Responses.join after) := by
    cases after with
    | nil => simp [empty]
    | cons text after =>
        rw [List.intercalate_cons_of_ne_nil (by simp)]
        simp only [List.isEmpty_cons, Bool.false_eq_true, ↓reduceIte]
        rw [utf8_append, space, utf8_join, List.append_assoc]
  cases before with
  | nil =>
      rw [List.map_nil, List.nil_append, behind]
      simp [empty]
  | cons text before =>
      rw [intercalate_append (by simp) (List.cons_ne_nil _ _), behind, ← utf8_join]
      simp only [List.isEmpty_cons, Bool.false_eq_true, ↓reduceIte]
      rw [utf8_append, space]
      simp only [List.append_assoc]

theorem rawResponse_renders (lib : Libraries) (sequence : Int) (view : MailboxMessageView)
    (items : List String) (raw : RawItems) (bytes : Bytes) :
    ∃ stop, rawResponse lib sequence view raw bytes =
      render sequence (shown lib view items (some raw) bytes) stop := by
  unfold rawResponse render shown
  simp only [filterMap_fetchMetadataPart, List.map_append, List.map_cons, bytes_metadata]
  generalize (shownMetadata lib view (rawNames raw.before)).map metadataText = before
  generalize (shownMetadata lib view (rawNames raw.after)).map metadataText = after
  refine ⟨if after.isEmpty then ")\r\n" else " )\r\n", ?_⟩
  have empty : Mutations.utf8 "" = [] := by decide
  rw [intercalate_around, Data.bytes]
  cases after with
  | nil => simp [utf8_append, empty]
  | cons text after => simp [utf8_append]

theorem mem_shownMetadata {lib : Libraries} {view : MailboxMessageView} {names : List String}
    {name value : String} :
    (name, value) ∈ shownMetadata lib view names ↔
      name ∈ names ∧ metadataValue lib view name = some value := by
  unfold shownMetadata
  rw [List.mem_filterMap]
  constructor
  · rintro ⟨found, member, isData⟩
    obtain ⟨value', isValue, same⟩ := Option.map_eq_some_iff.mp isData
    cases same
    exact ⟨member, isValue⟩
  · rintro ⟨member, isValue⟩
    exact ⟨name, member, by rw [isValue, Option.map_some]⟩

/-- The metadata that is shown for some names answers an item exactly if the item is a name among
them. -/
theorem metadata_answers_iff {lib : Libraries} {view : MailboxMessageView} {names : List String}
    {bytes : Bytes} {item : String} :
    (∃ data ∈ (shownMetadata lib view names).map fun data => Data.metadata data.1 data.2,
      data.Answers lib view bytes item) ↔ item ∈ names ∧ item ∈ metadataNames := by
  constructor
  · rintro ⟨data, member, answers⟩
    obtain ⟨⟨name, value⟩, shown, rfl⟩ := List.mem_map.mp member
    obtain ⟨rfl, isValue⟩ := answers
    refine ⟨(mem_shownMetadata.mp shown).1, ?_⟩
    by_contra other
    rw [(metadataValue_eq_none_iff lib view _).mpr other] at isValue
    cases isValue
  · rintro ⟨member, known⟩
    obtain ⟨value, isValue⟩ := Option.ne_none_iff_exists'.mp fun unknown =>
      (metadataValue_eq_none_iff lib view item).mp unknown known
    exact ⟨_, List.mem_map_of_mem (mem_shownMetadata.mpr ⟨member, isValue⟩), rfl, isValue⟩

/-! ## Raw items -/

def IsRaw (item : String) : Prop := ∃ request, parseRawFetchRequest item = .ok (some request)

/-- The items of a request: names of metadata and raw sections. -/
def Known (item : String) : Prop := item ∈ metadataNames ∨ IsRaw item

theorem metadata_not_raw : ∀ item ∈ metadataNames, parseRawFetchRequest item = .ok none := by
  decide +kernel

theorem label_of_parse {item : String} {request : RawFetchRequest}
    (read : parseRawFetchRequest item = .ok (some request)) : request.label = item := by
  unfold parseRawFetchRequest at read
  dsimp only at read
  generalize splitRange _ = range at read
  cases range with
  | error reason => cases read
  | ok range =>
      cases range with
      | none => cases read
      | some split =>
          obtain ⟨text, range⟩ := split
          simp only [Bind.bind, Except.bind] at read
          cases whole : wholeSection text with
          | some found =>
              rw [whole] at read
              cases read
              rfl
          | none =>
              rw [whole] at read
              dsimp only at read
              generalize parseBodyPartFetchRequest text = part at read
              cases part with
              | error reason => cases read
              | ok part =>
                  cases part with
                  | none => cases read
                  | some part =>
                      cases read
                      rfl

theorem splitRawItem_of_known {items : List String} (known : ∀ item ∈ items, Known item) :
    (splitRawItem items = .ok none ∧ ∀ item ∈ items, item ∈ metadataNames) ∨
      ∃ raw, splitRawItem items = .ok (some raw) ∧
        items = raw.before ++ raw.request.label :: raw.after ∧ IsRaw raw.request.label := by
  induction items with
  | nil => exact Or.inl ⟨splitRawItem_nil, fun _ member => absurd member List.not_mem_nil⟩
  | cons item items ih =>
      have rest := ih fun other member => known other (List.mem_cons_of_mem _ member)
      rw [splitRawItem_cons]
      rcases known item List.mem_cons_self with metadata | ⟨request, read⟩
      · rw [metadata_not_raw item metadata]
        rcases rest with ⟨none', plain⟩ | ⟨raw, found, same, isRaw⟩
        · rw [none']
          exact Or.inl ⟨rfl, List.forall_mem_cons.mpr ⟨metadata, plain⟩⟩
        · rw [found]
          refine Or.inr ⟨⟨item :: raw.before, raw.request, raw.after⟩, rfl, ?_, isRaw⟩
          rw [same]
          rfl
      · have label := label_of_parse read
        rw [read]
        refine Or.inr ⟨⟨[], request, items⟩, rfl, ?_, ?_⟩
        · rw [label]
          rfl
        · rw [label]
          exact ⟨request, read⟩

/-! ## Completeness -/

/-- With a raw item, MODSEQ is not asked for and every raw item is that one. -/
def Answerable (items : List String) : Prop :=
  ∀ first ∈ items, IsRaw first →
    "MODSEQ" ∉ items ∧ ∀ other ∈ items, IsRaw other → other = first

theorem not_raw_of_metadata {item : String} (metadata : item ∈ metadataNames) : ¬IsRaw item := by
  rintro ⟨request, read⟩
  rw [metadata_not_raw item metadata] at read
  cases read

theorem formatted_answers (lib : Libraries) (view : MailboxMessageView) {items : List String}
    (plain : ∀ item ∈ items, item ∈ metadataNames) (bytes : Bytes) :
    ∀ item ∈ items, ∃ data ∈ shown lib view items none bytes, data.Answers lib view bytes item := by
  intro item member
  refine metadata_answers_iff.mpr ⟨?_, plain item member⟩
  unfold formattedNames
  rw [List.mem_filter]
  refine ⟨plain item member, ?_⟩
  unfold wants
  split
  · rw [Bool.or_eq_true]
    exact Or.inl (List.contains_iff_mem.mpr member)
  · exact List.contains_iff_mem.mpr member

theorem raw_answers_iff (lib : Libraries) (view : MailboxMessageView) (items : List String)
    (raw : RawItems) (bytes : Bytes) (item : String) :
    (∃ data ∈ shown lib view items (some raw) bytes, data.Answers lib view bytes item) ↔
      item = raw.request.label ∨
        item ∈ raw.before ++ raw.after ∧ item ∈ metadataNames ∧ item ≠ "MODSEQ" := by
  have named : ∀ names : List String, (∃ data ∈ (shownMetadata lib view (rawNames names)).map
      fun data => Data.metadata data.1 data.2, data.Answers lib view bytes item) ↔
      item ∈ names ∧ item ∈ metadataNames ∧ item ≠ "MODSEQ" := by
    intro names
    rw [metadata_answers_iff, rawNames, List.mem_filter, decide_eq_true_eq, and_assoc,
      and_comm (a := item ≠ "MODSEQ")]
  have literal : (Data.literal raw.request.label bytes).Answers lib view bytes item ↔
      item = raw.request.label := (and_iff_left rfl).trans eq_comm
  unfold shown
  simp only [List.mem_append, List.mem_cons, or_and_right, exists_or, exists_eq_left, named, literal]
  tauto

theorem answers_iff_answerable {items : List String} (known : ∀ item ∈ items, Known item)
    {raw : RawItems} (same : items = raw.before ++ raw.request.label :: raw.after)
    (isRaw : IsRaw raw.request.label)
    (lib : Libraries) (view : MailboxMessageView) (bytes : Bytes) :
    (∀ item ∈ items, ∃ data ∈ shown lib view items (some raw) bytes, data.Answers lib view bytes item) ↔
      Answerable items := by
  have first : raw.request.label ∈ items := by
    rw [same, List.mem_append]
    exact Or.inr List.mem_cons_self
  have around : ∀ item ∈ items, item = raw.request.label ∨ item ∈ raw.before ++ raw.after := by
    intro item member
    rw [same, List.mem_append, List.mem_cons] at member
    rw [List.mem_append]
    tauto
  constructor
  · intro answered
    -- An answer is the literal or metadata other than MODSEQ.
    have modseq : "MODSEQ" ∉ items := by
      intro member
      rcases (raw_answers_iff lib view items raw bytes _).mp (answered _ member) with label | other
      · exact not_raw_of_metadata (by decide) (label ▸ isRaw)
      · exact other.2.2 rfl
    have single : ∀ item ∈ items, IsRaw item → item = raw.request.label := by
      intro item member rawItem
      rcases (raw_answers_iff lib view items raw bytes _).mp (answered _ member) with label | other
      · exact label
      · exact absurd rawItem (not_raw_of_metadata other.2.1)
    intro item member rawItem
    refine ⟨modseq, ?_⟩
    intro other otherMember otherRaw
    rw [single item member rawItem, single other otherMember otherRaw]
  · intro answerable item member
    obtain ⟨modseq, single⟩ := answerable _ first isRaw
    rw [raw_answers_iff]
    rcases known item member with metadata | rawItem
    · have other : item ≠ "MODSEQ" := by
        rintro rfl
        exact modseq member
      rcases around item member with label | inside
      · exact Or.inl label
      · exact Or.inr ⟨inside, metadata, other⟩
    · exact Or.inl (single item member rawItem)

/-! ## What is written -/

section Messages
variable (views : List MailboxMessageView) (set : String)

def sequenceViews : List (Int × MailboxMessageView) :=
  (parseNumberSet set views.length).filterMap fun sequence =>
    views[(sequence - 1).toNat]?.map fun message => (sequence, message)

def uidViews : List MailboxMessageView :=
  views.filter fun view => (parseNumberSet set ((views.map (·.localUid)).max?.getD 0)).contains view.localUid

/-- The messages of a set with the number that each is announced under. -/
def setViews (isUid : Bool) : List (Int × MailboxMessageView) :=
  if isUid then (uidViews views set).map fun view => (view.localUid, view) else sequenceViews views set

end Messages

variable {lib : Libraries} {allowed : Fault Error → Prop}

theorem resolveSequenceViews_read (mailboxId : Int) (set : String) (world : World) :
    (resolveSequenceViews mailboxId set).Ensures (cacheHandler lib) allowed (fun views world' =>
      views = sequenceViews (world.db.listMailboxMessageViews lib.createdAt mailboxId) set ∧ world' = world)
      (fun _ _ => True) world :=
  ensures_bind.mpr (ensures_read rfl (ensures_bind.mpr (ensures_numberSet ⟨rfl, rfl⟩)))

theorem resolveUidViews_read (mailboxId : Int) (set : String) (world : World) :
    (resolveUidViews mailboxId set).Ensures (cacheHandler lib) allowed (fun views world' =>
      views = uidViews (world.db.listMailboxMessageViews lib.createdAt mailboxId) set ∧ world' = world)
      (fun _ _ => True) world :=
  ensures_bind.mpr (ensures_read rfl (ensures_bind.mpr (ensures_numberSet ⟨rfl, rfl⟩)))

theorem resolveViews_read (isUid : Bool) (mailboxId : Int) (set : String) (world : World) :
    (resolveViews isUid mailboxId set).Ensures (cacheHandler lib) allowed (fun targets world' =>
      targets = setViews (world.db.listMailboxMessageViews lib.createdAt mailboxId) set isUid ∧ world' = world)
      (fun _ _ => True) world := by
  unfold resolveViews
  cases isUid with
  | true =>
      refine ensures_bind.mpr ((resolveUidViews_read mailboxId set world).mono ?_ fun _ _ => id)
      rintro views world' ⟨rfl, rfl⟩
      exact ⟨rfl, rfl⟩
  | false => exact resolveSequenceViews_read mailboxId set world

/-- A FETCH of raw bytes from a mailbox. -/
structure RawCommand where
  context : Commands.Context
  accountId : Int
  mailboxName : String
  mailboxId : Int
  items : RawItems

namespace RawCommand

def load (command : RawCommand) (view : MailboxMessageView) : Action (Option Bytes) :=
  loadRawFetchBytes
    ⟨command.context.lib, command.context.connection, command.accountId, command.mailboxName, view⟩
    command.items.request.bodySection command.items.request.range

def noteSeen (command : RawCommand) (view : MailboxMessageView) : Action Unit :=
  onlyIf (!command.items.request.peek && !hasSeen view.flags)
    (markSeen command.context command.accountId command.mailboxId view)

/-- The bytes of each message are loaded in the state that the rounds for the messages before it have left. -/
def Loaded (command : RawCommand) : List (Int × MailboxMessageView) → List Bytes → World → World → Prop
  | [], [], world, world' => world' = world
  | target :: targets, bytes :: loaded, world, world' => ∃ faults faults' world₁ world₂,
      (command.load target.2).run (cacheHandler command.context.lib) faults world =
        (.ok (some bytes), world₁) ∧
      (command.noteSeen target.2).run (cacheHandler command.context.lib) faults' world₁ = (.ok (), world₂) ∧
      command.Loaded targets loaded world₂ world'
  | _, _, _, _ => False

/-- One response for each message, with the bytes that were loaded for it. -/
def responses (command : RawCommand) (targets : List (Int × MailboxMessageView)) (loaded : List Bytes) : Bytes :=
  (targets.zip loaded).flatMap fun message =>
    rawResponse command.context.lib message.1.1 message.1.2 command.items message.2

theorem Loaded.length {command : RawCommand} {targets : List (Int × MailboxMessageView)}
    {loaded : List Bytes} {world world' : World} (isLoaded : command.Loaded targets loaded world world') :
    loaded.length = targets.length := by
  induction targets generalizing loaded world with
  | nil =>
      cases loaded with
      | nil => rfl
      | cons bytes loaded => exact isLoaded.elim
  | cons target targets ih =>
      cases loaded with
      | nil => exact isLoaded.elim
      | cons bytes loaded =>
          obtain ⟨-, -, _, _, -, -, rest⟩ := isLoaded
          rw [List.length_cons, List.length_cons, ih rest]

theorem rounds_write (command : RawCommand) (targets : List (Int × MailboxMessageView)) (before : Bytes)
    (world : World) :
    (targets.foldlM (fetchRaw command.context command.accountId command.mailboxName command.mailboxId
        command.items) before).Ensures (cacheHandler command.context.lib) allowed
      (fun written world' => ∃ loaded, command.Loaded targets loaded world world' ∧
        written = before ++ command.responses targets loaded) (fun _ _ => True) world := by
  induction targets generalizing before world with
  | nil => exact ⟨[], rfl, by simp [responses]⟩
  | cons target targets ih =>
      rw [List.foldlM_cons, bind_eq]
      unfold fetchRaw
      refine ensures_bind.mpr (ensures_bind.mpr
        ((ensures_ran (command.load target.2) world).mono ?_ fun _ _ _ => trivial))
      rintro found world₁ ⟨faults, ran⟩
      refine ensures_bind.mpr (ensures_orThrow (fun bytes isFound => ?_) fun _ => trivial)
      refine ensures_bind.mpr ((ensures_ran (command.noteSeen target.2) world₁).mono ?_ fun _ _ _ => trivial)
      rintro _ world₂ ⟨faults', noted⟩
      refine (ih _ world₂).mono ?_ fun _ _ => id
      rintro written world' ⟨loaded, rest, rfl⟩
      rw [isFound] at ran
      refine ⟨bytes :: loaded, ⟨faults, faults', world₁, world₂, ran, noted, rest⟩, ?_⟩
      simp [responses]

end RawCommand

theorem answerRawFetch_writes (context : Commands.Context) (accountId : Int) (name : String)
    (mailboxId : Int) (isUid : Bool) (set : String) (args : List String) (world : World) :
    (answerRawFetch context accountId name mailboxId isUid set args).Ensures (cacheHandler context.lib) allowed
      (fun result world' => ∀ written, result = some written → ∃ items loaded,
        splitRawItem (parseFetchItems args) = .ok (some items) ∧
        RawCommand.Loaded ⟨context, accountId, name, mailboxId, items⟩
          (setViews (world.db.listMailboxMessageViews context.lib.createdAt mailboxId) set isUid) loaded
          world world' ∧
        written = RawCommand.responses ⟨context, accountId, name, mailboxId, items⟩
          (setViews (world.db.listMailboxMessageViews context.lib.createdAt mailboxId) set isUid) loaded)
      (fun _ _ => True) world := by
  unfold answerRawFetch
  refine ensures_bind.mpr (ensures_orPanic fun found split => ?_)
  cases found with
  | none =>
      intro written none
      cases none
  | some items =>
      refine ensures_bind.mpr ((resolveViews_read isUid mailboxId set world).mono ?_ fun _ _ => id)
      rintro targets world' ⟨rfl, rfl⟩
      refine ensures_bind.mpr ((RawCommand.rounds_write ⟨context, accountId, name, mailboxId, items⟩ _ []
        world').mono ?_ fun _ _ => id)
      rintro bytes world₁ ⟨loaded, isLoaded, rfl⟩ written same
      cases same
      exact ⟨items, loaded, split, isLoaded, List.nil_append _⟩

/-- What one of the two encoders makes of a message. -/
def encoded (lib : Libraries) (sequence : Int) (view : MailboxMessageView) (items : List String)
    (raw : Option RawItems) (bytes : Bytes) : Bytes :=
  match raw with
  | none => Mutations.utf8 (Responses.formatFetchResponse lib sequence view items)
  | some raw => rawResponse lib sequence view raw bytes

/-- The response for a message is rendered from its data, and the data answers every item that was
asked for exactly if the items are answerable. -/
theorem fetch_items_answered_iff (lib : Libraries) (args : List String)
    (known : ∀ item ∈ parseFetchItems args, Known item) :
    ∃ raw, splitRawItem (parseFetchItems args) = .ok raw ∧ ∀ sequence view bytes,
      (∃ stop, encoded lib sequence view (parseFetchItems args) raw bytes =
        render sequence (shown lib view (parseFetchItems args) raw bytes) stop) ∧
      ((∀ item ∈ parseFetchItems args, ∃ data ∈ shown lib view (parseFetchItems args) raw bytes,
          data.Answers lib view bytes item) ↔
        Answerable (parseFetchItems args)) := by
  rcases splitRawItem_of_known known with ⟨none', plain⟩ | ⟨raw, found, same, isRaw⟩
  · refine ⟨none, none', ?_⟩
    intro sequence view bytes
    refine ⟨⟨")", formatFetchResponse_renders lib sequence view _ bytes⟩, ?_⟩
    constructor
    · intro _ first member isRaw
      exact absurd isRaw (not_raw_of_metadata (plain first member))
    · intro _
      exact formatted_answers lib view plain bytes
  · refine ⟨some raw, found, ?_⟩
    intro sequence view bytes
    exact ⟨rawResponse_renders lib sequence view _ raw bytes,
      answers_iff_answerable known same isRaw lib view bytes⟩

theorem flags_and_body_answered :
    ∃ raw, splitRawItem (parseFetchItems ["(FLAGS BODY[])"]) = .ok raw ∧ ∀ view bytes,
      ∀ item ∈ parseFetchItems ["(FLAGS BODY[])"],
        ∃ data ∈ shown Sample.libraries view (parseFetchItems ["(FLAGS BODY[])"]) raw bytes,
          data.Answers Sample.libraries view bytes item := by
  have items : parseFetchItems ["(FLAGS BODY[])"] = ["FLAGS", "BODY[]"] := by decide +kernel
  have body : IsRaw "BODY[]" := ⟨⟨"BODY[]", .whole .full, none, false⟩, by decide +kernel⟩
  have known : ∀ item ∈ parseFetchItems ["(FLAGS BODY[])"], Known item := by
    rw [items]
    simp [Known, body, metadataNames]
  have answerable : Answerable (parseFetchItems ["(FLAGS BODY[])"]) := by
    have flags : ¬IsRaw "FLAGS" := not_raw_of_metadata (by decide)
    rw [items]
    intro first member isRaw
    refine ⟨by decide, ?_⟩
    intro other otherMember otherRaw
    simp only [List.mem_cons, List.not_mem_nil, or_false] at member otherMember
    rcases member with rfl | rfl
    · exact absurd isRaw flags
    · rcases otherMember with rfl | rfl
      · exact absurd otherRaw flags
      · rfl
  obtain ⟨raw, found, complete⟩ := fetch_items_answered_iff Sample.libraries ["(FLAGS BODY[])"] known
  exact ⟨raw, found, fun view bytes => (complete 1 view bytes).2.mpr answerable⟩

/-- The response to `FETCH 1 (MODSEQ BODY[] RFC822.HEADER)` has one of the three items. -/
theorem modseq_and_second_section_missing :
    (splitRawItem (parseFetchItems ["(MODSEQ BODY[] RFC822.HEADER)"])).toOption.map
        (fun raw => raw.map fun raw =>
          rawResponse Sample.libraries 1 (Sample.view 1 [] "hi") raw (Mutations.utf8 "hi")) =
      some (some (Mutations.utf8 "* 1 FETCH (BODY[] \x7b2\x7d\r\nhi)\r\n")) := by
  decide +kernel

end ImapCache.FetchItems
