import ImapCache.Lib.Sexpr
import ImapCache.Proof.CommandStream
import ImapCache.Proof.ResponseLines

/-!
# ENVELOPE and BODYSTRUCTURE as S-expressions

A reader of S-expressions gets one list back from either encoder, with the texts of the document in their
places and with the lists nested as the parts of the document are.
-/

namespace ImapCache.Responses
open Lib
open Lib.Sexpr (Reads)

/-! ## What is read -/

def nstringItem : Option String → Sexpr
  | some value => .text value.toList
  | none => .nil

def listItem (items : List Sexpr) : Sexpr := if items.isEmpty then .nil else .list items

def addressItem (item : Json) : Sexpr :=
  let parts := addressParts ((textAt item "address").getD "")
  .list [nstringItem (textAt item "display_name"), .nil, nstringItem parts.1, nstringItem parts.2]

def addressesItem (value : Option Json) : Sexpr :=
  listItem ((mailboxItems ((value.bind Json.asArray).getD [])).map addressItem)

def envelopeItems (lib : Libraries) (value : Json) : List Sexpr :=
  let date := (((value.get "date").bind Json.asI64).bind lib.fromTimestamp).map lib.formatImapDate
  [nstringItem date, nstringItem (textAt value "subject"), addressesItem (value.get "from"),
    addressesItem (value.get "from"), addressesItem (value.get "reply_to"), addressesItem (value.get "to"),
    addressesItem (value.get "cc"), addressesItem (value.get "bcc"), .nil,
    nstringItem (textAt value "message_id")]

def paramsItem : Option Json → Sexpr
  | some (.obj fields) =>
      listItem ((textParams fields).flatMap fun param => [.text param.1.toList, .text param.2.toList])
  | _ => .nil

def singleItems (value : Json) : List Sexpr :=
  let typeName := (textAt value "type").getD "application"
  let params : Sexpr := match textAt value "charset" with
    | some charset => .list [.text "CHARSET".toList, .text charset.toList]
    | none => paramsItem (value.get "params")
  [.text typeName.toList, .text ((textAt value "subtype").getD "octet-stream").toList, params, .nil, .nil,
    .text (transferEncoding value).toList, .number (numberAt value "size")] ++
    (if eqIgnoreAsciiCase typeName "text" then [.number 0] else []) ++ [.nil, .nil, .nil]

/-- The list of a body: those of its parts for a multipart, those of the envelope and of the body inside
for a message, and one without lists but for the parameters otherwise. -/
def bodyItem (lib : Libraries) (value : Json) : Sexpr :=
  match bodyKind value with
  | .multipart =>
      .list (((bodyParts value).attach.map fun part => bodyItem lib part.1) ++
        [.text ((textAt value "subtype").getD "mixed").toList, paramsItem (value.get "params")])
  | .message =>
      let envelope := (value.get "envelope").map fun envelope => .list (envelopeItems lib envelope)
      let bodystructure := (value.get "bodystructure").attach.map fun inner => bodyItem lib inner.1
      .list [.text "message".toList, .text "rfc822".toList, paramsItem (value.get "params"), .nil, .nil,
        .text (transferEncoding value).toList, .number (numberAt value "size"), envelope.getD .nil,
        bodystructure.getD .nil, .number (numberAt value "lines")]
  | .single => .list (singleItems value)
termination_by sizeOf value
decreasing_by
  · exact sizeOf_bodyParts part.2
  · exact sizeOf_get inner.2

/-! ## Reading texts and lists -/

theorem reads_quoteImapString (value : String) : Reads (quoteImapString value).toList [.text value.toList] := by
  rw [CommandStream.quoteImapString_toList]
  exact Sexpr.reads_quoted value.toList

theorem reads_NIL : Reads "NIL".toList [.nil] := Sexpr.reads_NIL

theorem reads_nstring (value : Option String) : Reads (nstring value).toList [nstringItem value] := by
  cases value with
  | none => exact reads_NIL
  | some value => exact reads_quoteImapString value

theorem reads_list {parts : List String} {items : List (List Sexpr)}
    (reads : List.Forall₂ (fun text items => Reads text.toList items) parts items) :
    Reads ("(" ++ join parts ++ ")").toList [.list items.flatten] := by
  have shape : ("(" ++ join parts ++ ")").toList = '(' :: ((join parts).toList ++ [')']) := by
    rw [String.toList_append, String.toList_append]
    rfl
  rw [shape]
  exact (Sexpr.reads_join reads).list

theorem reads_listItem {parts : List String} {items : List Sexpr}
    (reads : List.Forall₂ (fun text item => Reads text.toList [item]) parts items) :
    Reads (if parts.isEmpty then "NIL" else "(" ++ join parts ++ ")").toList [listItem items] := by
  cases reads with
  | nil => exact reads_NIL
  | @cons text item parts items first rest =>
      have each : List.Forall₂ (fun text items => Reads text.toList items) (text :: parts)
          ((item :: items).map fun item => [item]) :=
        List.forall₂_map_right_iff.mpr (.cons first rest)
      have singles : ((item :: items).map fun item => [item]).flatten = item :: items :=
        List.flatMap_singleton' (item :: items)
      have whole := reads_list each
      rw [singles] at whole
      exact whole

theorem forall₂_map {α : Type} {R : String → Sexpr → Prop} {encode : α → String} {item : α → Sexpr}
    (each : ∀ value, R (encode value) (item value)) (values : List α) :
    List.Forall₂ R (values.map encode) (values.map item) := by
  rw [List.forall₂_map_left_iff, List.forall₂_map_right_iff, List.forall₂_same]
  exact fun value _ => each value

theorem reads_encodeImapAddress (item : Json) : Reads (encodeImapAddress item).toList [addressItem item] := by
  let parts := addressParts ((textAt item "address").getD "")
  have shape : encodeImapAddress item =
      "(" ++ join [nstring (textAt item "display_name"), "NIL", nstring parts.1, nstring parts.2] ++ ")" := by
    have joined : join [nstring (textAt item "display_name"), "NIL", nstring parts.1, nstring parts.2] =
        nstring (textAt item "display_name") ++ " " ++
          ("NIL" ++ " " ++ (nstring parts.1 ++ " " ++ nstring parts.2)) := by
      simp only [join, String.intercalate_cons_cons, String.intercalate_singleton]
    have space : " NIL " = " " ++ "NIL" ++ " " := by decide
    unfold encodeImapAddress
    rw [joined, space]
    simp only [String.append_assoc]
    rfl
  rw [shape]
  exact reads_list (.cons (reads_nstring _) (.cons reads_NIL (.cons (reads_nstring _)
    (.cons (reads_nstring _) .nil))))

theorem reads_encodeImapAddressList (value : Option Json) :
    Reads (encodeImapAddressList value).toList [addressesItem value] := by
  unfold encodeImapAddressList addressesItem
  cases value.bind Json.asArray with
  | none => exact reads_NIL
  | some items => exact reads_listItem (forall₂_map reads_encodeImapAddress (mailboxItems items))

theorem reads_encodeEnvelope (lib : Libraries) (value : Json) :
    Reads (encodeEnvelope lib value).toList [.list (envelopeItems lib value)] := by
  have addresses (key : String) := reads_encodeImapAddressList (value.get key)
  unfold encodeEnvelope
  exact reads_list (.cons (reads_nstring _) (.cons (reads_nstring _) (.cons (addresses "from")
    (.cons (addresses "from") (.cons (addresses "reply_to") (.cons (addresses "to") (.cons (addresses "cc")
      (.cons (addresses "bcc") (.cons reads_NIL (.cons (reads_nstring _) .nil))))))))))

/-! ## Bodies -/

theorem reads_encodeParamList (params : Option Json) :
    Reads (encodeParamList params).toList [paramsItem params] := by
  cases params with
  | none => exact reads_NIL
  | some params =>
      cases params with
      | obj fields =>
          refine reads_listItem ?_
          induction textParams fields with
          | nil => exact .nil
          | cons param params ih =>
              rw [List.flatMap_cons, List.flatMap_cons]
              exact .cons (reads_quoteImapString _) (.cons (reads_quoteImapString _) ih)
      | _ => exact reads_NIL

theorem reads_ending {front ending : String} {last : List Char} {items others : List Sexpr}
    (first : Reads front.toList items) (second : Reads last others)
    (shape : ending.toList = ' ' :: (last ++ [')'])) :
    Reads ("(" ++ front ++ ending).toList [.list (items ++ others)] := by
  have whole : ("(" ++ front ++ ending).toList = '(' :: ((front.toList ++ ' ' :: last) ++ [')']) := by
    rw [String.toList_append, String.toList_append, shape]
    simp
  rw [whole]
  exact (first.space second).list

theorem reads_encodeSinglePart (value : Json) :
    Reads (encodeSinglePart value).toList [.list (singleItems value)] := by
  let typeName := (textAt value "type").getD "application"
  have params : Reads (singleParams value).toList [match textAt value "charset" with
      | some charset => .list [.text "CHARSET".toList, .text charset.toList]
      | none => paramsItem (value.get "params")] := by
    unfold singleParams
    cases textAt value "charset" with
    | none => exact reads_encodeParamList _
    | some charset =>
        exact reads_list (.cons (reads_quoteImapString _) (.cons (reads_quoteImapString _) .nil))
  have front := Sexpr.reads_join (.cons (reads_quoteImapString typeName)
    (.cons (reads_quoteImapString ((textAt value "subtype").getD "octet-stream"))
      (.cons params (.cons reads_NIL (.cons reads_NIL (.cons (reads_quoteImapString (transferEncoding value))
        (.cons (Sexpr.reads_number (numberAt value "size")) .nil)))))))
  have nils : Reads "NIL NIL NIL".toList [.nil, .nil, .nil] := reads_NIL.space (reads_NIL.space reads_NIL)
  have numbered : Reads "0 NIL NIL NIL".toList [.number 0, .nil, .nil, .nil] := (Sexpr.reads_number 0).space nils
  unfold encodeSinglePart singleItems
  by_cases isText : eqIgnoreAsciiCase typeName "text" = true
  · have ending : (if eqIgnoreAsciiCase typeName "text" then " 0 NIL NIL NIL)" else " NIL NIL NIL)").toList =
        ' ' :: ("0 NIL NIL NIL".toList ++ [')']) := by
      rw [if_pos isText]
      decide
    have whole := reads_ending front numbered ending
    simp only [isText, typeName] at whole ⊢
    exact whole
  · have ending : (if eqIgnoreAsciiCase typeName "text" then " 0 NIL NIL NIL)" else " NIL NIL NIL)").toList =
        ' ' :: ("NIL NIL NIL".toList ++ [')']) := by
      rw [if_neg isText]
      decide
    have whole := reads_ending front nils ending
    simp only [isText, typeName] at whole ⊢
    exact whole

theorem reads_optional {α : Type} (encode : α → String) (item : α → Sexpr) (value : Option α)
    (each : ∀ v, value = some v → Reads (encode v).toList [item v]) :
    Reads ((value.map encode).getD "NIL").toList [(value.map item).getD .nil] := by
  cases value with
  | none => exact reads_NIL
  | some v => exact each v rfl

theorem reads_encodeBodystructure (lib : Libraries) (value : Json) :
    Reads (encodeBodystructure lib value).toList [bodyItem lib value] := by
  induction value using bodystructure_induction with
  | step value parts inner =>
      cases kind : bodyKind value with
      | multipart =>
          have nested : List.Forall₂ (fun text items => Reads text.toList items)
              ((bodyParts value).attach.map fun part => encodeBodystructure lib part.1)
              ((bodyParts value).attach.map fun part => [bodyItem lib part.1]) := by
            rw [List.forall₂_map_left_iff, List.forall₂_map_right_iff, List.forall₂_same]
            exact fun part _ => parts part.1 part.2
          have body := reads_list (.cons (Sexpr.reads_join nested)
            (.cons (reads_quoteImapString ((textAt value "subtype").getD "mixed"))
              (.cons (reads_encodeParamList (value.get "params")) .nil)))
          have singles : ((bodyParts value).attach.map fun part => [bodyItem lib part.1]).flatten =
              (bodyParts value).attach.map fun part => bodyItem lib part.1 :=
            List.flatMap_pure_eq_map _ _
          rw [List.flatten_cons, singles] at body
          rw [encodeBodystructure, bodyItem, kind]
          exact body
      | message =>
          have envelope := reads_optional (encodeEnvelope lib)
            (fun envelope => .list (envelopeItems lib envelope)) (value.get "envelope")
            fun envelope _ => reads_encodeEnvelope lib envelope
          have bodystructure : Reads (((value.get "bodystructure").attach.map fun found =>
              encodeBodystructure lib found.1).getD "NIL").toList
              [((value.get "bodystructure").attach.map fun found => bodyItem lib found.1).getD .nil] := by
            refine reads_optional _ _ (value.get "bodystructure").attach ?_
            intro found _
            exact inner found.1 found.2
          have body := reads_list (.cons (reads_quoteImapString "message")
            (.cons (reads_quoteImapString "rfc822") (.cons (reads_encodeParamList (value.get "params"))
              (.cons reads_NIL (.cons reads_NIL (.cons (reads_quoteImapString (transferEncoding value))
                (.cons (Sexpr.reads_number (numberAt value "size")) (.cons envelope (.cons bodystructure
                  (.cons (Sexpr.reads_number (numberAt value "lines")) .nil))))))))))
          have names : quoteImapString "message" = "\"message\"" ∧ quoteImapString "rfc822" = "\"rfc822\"" := by
            decide
          rw [names.1, names.2] at body
          rw [encodeBodystructure, bodyItem, kind]
          exact body
      | single =>
          rw [encodeBodystructure, bodyItem, kind]
          exact reads_encodeSinglePart value

/-! ## What is read of a document -/

/-- What is read for the text that a document has under a key. -/
def TextOf (value : Json) (key : String) (item : Sexpr) : Prop :=
  (∀ text, value.get key = some (.str text) → item = .text text.toList) ∧
    ((∀ text, value.get key ≠ some (.str text)) → item = .nil)

/-- The items of the array that a document has under a key; without an array there are none. -/
def ItemsOf (value : Json) (key : String) (items : List Json) : Prop :=
  (∀ others, value.get key = some (.arr others) → items = others) ∧
    ((∀ others, value.get key ≠ some (.arr others)) → items = [])

def IsMultipart (value : Json) : Prop := value.get "type" = some (.str "multipart")

def IsMessage (value : Json) : Prop :=
  value.get "type" = some (.str "message") ∧ value.get "subtype" = some (.str "rfc822")

/-- A list that is nested as a document is. A multipart starts with the lists of its parts, a message has
those of its envelope and of its body in the eighth and ninth place, and otherwise only the parameters are
a list. -/
inductive Mirrors (lib : Libraries) : Json → Sexpr → Prop
  | multipart {value : Json} {parts : List Json} {lists : List Sexpr} (subtype : String) (params : Sexpr)
      (isMultipart : IsMultipart value) (isParts : ItemsOf value "parts" parts)
      (nested : List.Forall₂ (Mirrors lib) parts lists) :
      Mirrors lib value (.list (lists ++ [.text subtype.toList, params]))
  | message {value : Json} {params envelope body : Sexpr} (encoding : String) (size lines : Int)
      (isMessage : IsMessage value)
      (isEnvelope : ∀ inner, value.get "envelope" = some inner → envelope = .list (envelopeItems lib inner))
      (noEnvelope : value.get "envelope" = none → envelope = .nil)
      (isBody : ∀ inner, value.get "bodystructure" = some inner → Mirrors lib inner body)
      (noBody : value.get "bodystructure" = none → body = .nil) :
      Mirrors lib value (.list [.text "message".toList, .text "rfc822".toList, params, .nil, .nil,
        .text encoding.toList, .number size, envelope, body, .number lines])
  | single {value : Json} {params : Sexpr} {rest : List Sexpr} (typeName subtype : String)
      (notMultipart : ¬IsMultipart value) (notMessage : ¬IsMessage value)
      (flat : ∀ item ∈ rest, ∀ inner, item ≠ .list inner) :
      Mirrors lib value (.list (.text typeName.toList :: .text subtype.toList :: params :: rest))

theorem textAt_eq_some {value : Json} {key text : String} :
    textAt value key = some text ↔ value.get key = some (.str text) := by
  unfold textAt
  cases value.get key with
  | none => simp
  | some found => cases found <;> simp [Json.asStr]

theorem textOf_nstringItem (value : Json) (key : String) : TextOf value key (nstringItem (textAt value key)) := by
  constructor
  · intro text found
    rw [textAt_eq_some.mpr found]
    rfl
  · intro absent
    cases found : textAt value key with
    | none => rfl
    | some text => exact absurd (textAt_eq_some.mp found) (absent text)

theorem itemsOf_bodyParts (value : Json) : ItemsOf value "parts" (bodyParts value) := by
  unfold bodyParts
  constructor
  · intro others found
    rw [found]
    rfl
  · intro absent
    cases found : value.get "parts" with
    | none => rfl
    | some inner =>
        cases inner with
        | arr items => exact absurd found (absent items)
        | _ => rfl

theorem bodyKind_multipart {value : Json} : bodyKind value = .multipart ↔ IsMultipart value := by
  unfold IsMultipart bodyKind
  rw [← textAt_eq_some]
  split
  · simp_all
  · split <;> simp_all
  · simp_all

theorem bodyKind_message {value : Json} : bodyKind value = .message ↔ IsMessage value := by
  unfold IsMessage bodyKind
  rw [← textAt_eq_some, ← textAt_eq_some]
  split
  · simp_all
  · split <;> simp_all
  · simp_all

theorem mirrors_bodyItem (lib : Libraries) (value : Json) : Mirrors lib value (bodyItem lib value) := by
  induction value using bodystructure_induction with
  | step value parts inner =>
      rw [bodyItem]
      cases kind : bodyKind value with
      | multipart =>
          refine .multipart _ _ (bodyKind_multipart.mp kind) (itemsOf_bodyParts value) ?_
          have each : List.Forall₂ (Mirrors lib) ((bodyParts value).attach.map fun part => part.1)
              ((bodyParts value).attach.map fun part => bodyItem lib part.1) := by
            rw [List.forall₂_map_left_iff, List.forall₂_map_right_iff, List.forall₂_same]
            exact fun part _ => parts part.1 part.2
          rwa [List.attach_map_subtype_val] at each
      | message =>
          refine .message _ _ _ (bodyKind_message.mp kind) ?_ ?_ ?_ ?_
          · intro envelope found
            rw [found]
            rfl
          · intro absent
            rw [absent]
            rfl
          · intro body found
            rw [Option.attach_map_val, found]
            exact inner body found
          · intro absent
            rw [Option.attach_map_val, absent]
            rfl
      | single =>
          refine .single _ _ ?_ ?_ ?_
          · rw [← bodyKind_multipart, kind]
            simp
          · rw [← bodyKind_message, kind]
            simp
          · intro item member items same
            subst same
            split at member <;> simp at member

/-- Either encoder's whole text is read as one list. That of an envelope has ten items, with the texts of
the subject and of the id in their places, and that of a body is nested as its document is. -/
theorem responses_readable (lib : Libraries) :
    (∀ envelope, Sexpr.read (encodeEnvelope lib envelope).toList = some [.list (envelopeItems lib envelope)] ∧
      (envelopeItems lib envelope).length = 10 ∧
      (∃ subject, (envelopeItems lib envelope)[1]? = some subject ∧ TextOf envelope "subject" subject) ∧
      ∃ messageId, (envelopeItems lib envelope)[9]? = some messageId ∧
        TextOf envelope "message_id" messageId) ∧
    ∀ bodystructure, Sexpr.read (encodeBodystructure lib bodystructure).toList =
      some [bodyItem lib bodystructure] ∧ Mirrors lib bodystructure (bodyItem lib bodystructure) :=
  ⟨fun envelope => ⟨(reads_encodeEnvelope lib envelope).read_eq, rfl, ⟨_, rfl, textOf_nstringItem _ _⟩,
      ⟨_, rfl, textOf_nstringItem _ _⟩⟩,
    fun bodystructure => ⟨(reads_encodeBodystructure lib bodystructure).read_eq, mirrors_bodyItem lib _⟩⟩

end ImapCache.Responses
