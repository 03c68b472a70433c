import Mathlib.Data.List.TakeDrop
import ImapCache.Model.Sample

/-!
# Line breaks in FETCH responses

Quoting leaves every CR and LF of a text as it is, and the encoders add none of their own: the
line breaks of a response are those of the texts it quotes, in their order.
-/

namespace ImapCache.Responses

def isLineBreak (c : Char) : Bool := c == '\r' || c == '\n'

def lineBreaks (text : String) : List Char := text.toList.filter isLineBreak

def OneLine (text : String) : Prop := ∀ c ∈ text.toList, c ≠ '\r' ∧ c ≠ '\n'

theorem oneLine_iff (text : String) : OneLine text ↔ lineBreaks text = [] := by
  simp [OneLine, lineBreaks, isLineBreak, List.filter_eq_nil_iff]

theorem oneLine_iff_of_lineBreaks {text : String} {texts : List String}
    (breaks : lineBreaks text = texts.flatMap lineBreaks) :
    OneLine text ↔ ∀ quoted ∈ texts, OneLine quoted := by
  rw [oneLine_iff, breaks, List.flatMap_eq_nil_iff]
  exact forall₂_congr fun quoted _ => (oneLine_iff quoted).symm

/-! ## Strings -/

@[simp] theorem lineBreaks_append (a b : String) :
    lineBreaks (a ++ b) = lineBreaks a ++ lineBreaks b := by
  simp [lineBreaks]

@[simp] theorem lineBreaks_join (parts : List String) :
    lineBreaks (join parts) = parts.flatMap lineBreaks := by
  unfold join
  induction parts with
  | nil => rfl
  | cons part parts ih =>
      cases parts with
      | nil => simp
      | cons next rest =>
          have space : lineBreaks " " = [] := by decide
          rw [String.intercalate_cons_cons, lineBreaks_append, lineBreaks_append, ih, space]
          simp

theorem lineBreaks_replaceChar {old : Char} {new : List Char} (value : String)
    (same : new.filter isLineBreak = [old].filter isLineBreak) :
    lineBreaks (replaceChar old new value) = lineBreaks value := by
  simp only [lineBreaks, replaceChar, String.toList_ofList]
  induction value.toList with
  | nil => rfl
  | cons c chars ih =>
      rw [List.flatMap_cons, List.filter_append, ih]
      by_cases eq : c = old
      · subst eq
        rw [if_pos rfl, same, ← List.filter_append, List.singleton_append]
      · rw [if_neg eq, ← List.filter_append, List.singleton_append]

@[simp] theorem lineBreaks_quoteImapString (value : String) :
    lineBreaks (quoteImapString value) = lineBreaks value := by
  have quote : lineBreaks "\"" = [] := by decide
  unfold quoteImapString
  rw [lineBreaks_append, lineBreaks_append, quote, lineBreaks_replaceChar _ (by decide),
    lineBreaks_replaceChar _ (by decide)]
  simp

theorem lineBreaks_nil : lineBreaks "NIL" = [] := by decide

@[simp] theorem lineBreaks_nstring (value : Option String) :
    lineBreaks (nstring value) = value.toList.flatMap lineBreaks := by
  cases value with
  | none => simp [nstring, lineBreaks_nil]
  | some value => simp [nstring]

theorem lineBreaks_toString_nat (n : Nat) : lineBreaks (toString n) = [] := by
  rw [lineBreaks, List.filter_eq_nil_iff]
  intro c member
  rw [Nat.toString_eq_ofList_toDigits, String.toList_ofList] at member
  have digit := Nat.isDigit_of_mem_toDigits (by decide) (by decide) member
  rintro isBreak
  simp only [isLineBreak, Bool.or_eq_true, beq_iff_eq] at isBreak
  rcases isBreak with rfl | rfl
  · exact absurd digit (by decide)
  · exact absurd digit (by decide)

@[simp] theorem lineBreaks_repr (n : Int) : lineBreaks n.repr = [] := by
  cases n with
  | ofNat n => exact lineBreaks_toString_nat n
  | negSucc n =>
      have minus : lineBreaks "-" = [] := by decide
      have digits := lineBreaks_toString_nat (n + 1)
      change lineBreaks ("-" ++ toString (n + 1)) = []
      rw [lineBreaks_append, minus, digits]
      rfl

theorem lineBreaks_toString_int (n : Int) : lineBreaks (toString n) = [] := lineBreaks_repr n

/-- The texts before and after a separator have the line breaks of the whole, unless the
separator is one. -/
theorem lineBreaks_splitOnce {separator : Char} {value before after : String}
    (plain : isLineBreak separator = false)
    (split : splitOnce separator value = some (before, after)) :
    lineBreaks before ++ lineBreaks after = lineBreaks value := by
  unfold splitOnce at split
  rw [List.span_eq_takeWhile_dropWhile] at split
  have whole := List.takeWhile_append_dropWhile (p := (· != separator)) (l := value.toList)
  generalize value.toList.takeWhile (· != separator) = head at split whole
  generalize found : value.toList.dropWhile (· != separator) = tail at split whole
  cases tail with
  | nil => cases split
  | cons c rest =>
      have here : c = separator := by
        have := List.head?_dropWhile_not (· != separator) value.toList
        simpa [found] using this
      simp only [Option.some.injEq, Prod.mk.injEq] at split
      obtain ⟨rfl, rfl⟩ := split
      simp only [lineBreaks, String.toList_ofList, ← whole, List.filter_append]
      rw [List.filter_cons_of_neg (by simp [here, plain])]

/-! ## ENVELOPE -/

/-- The texts that an entry of an address list is built from. -/
def addressTexts (item : Json) : List String :=
  (textAt item "display_name").toList ++ (textAt item "address").toList

theorem lineBreaks_addressParts (address : String) :
    (addressParts address).1.toList.flatMap lineBreaks ++
      (addressParts address).2.toList.flatMap lineBreaks = lineBreaks address := by
  unfold addressParts
  split
  · rename_i localPart domainPart split
    simpa using lineBreaks_splitOnce (by decide) split
  · simp

theorem lineBreaks_encodeImapAddress (item : Json) :
    lineBreaks (encodeImapAddress item) = (addressTexts item).flatMap lineBreaks := by
  have address : lineBreaks ((textAt item "address").getD "") =
      (textAt item "address").toList.flatMap lineBreaks := by
    cases textAt item "address" with
    | none => rfl
    | some address => simp
  have opening : lineBreaks "(" = [] := by decide
  have route : lineBreaks " NIL " = [] := by decide
  have space : lineBreaks " " = [] := by decide
  have closing : lineBreaks ")" = [] := by decide
  have parts := lineBreaks_addressParts ((textAt item "address").getD "")
  simp only [encodeImapAddress, addressTexts, lineBreaks_append, lineBreaks_nstring, opening, route,
    space, closing, List.flatMap_append, List.nil_append, List.append_nil, List.append_assoc]
  rw [parts, address]

def addressListTexts (value : Option Json) : List String :=
  (mailboxItems ((value.bind Json.asArray).getD [])).flatMap addressTexts

theorem lineBreaks_parenthesized (parts : List String) :
    lineBreaks (if parts.isEmpty then "NIL" else "(" ++ join parts ++ ")") =
      parts.flatMap lineBreaks := by
  have opening : lineBreaks "(" = [] := by decide
  have closing : lineBreaks ")" = [] := by decide
  split
  · rename_i none
    rw [List.isEmpty_iff.mp none]
    rfl
  · simp [opening, closing]

theorem lineBreaks_encodeImapAddressList (value : Option Json) :
    lineBreaks (encodeImapAddressList value) = (addressListTexts value).flatMap lineBreaks := by
  unfold encodeImapAddressList addressListTexts
  cases value.bind Json.asArray with
  | none => rfl
  | some items =>
      simp only [Option.getD_some]
      rw [lineBreaks_parenthesized, List.flatMap_map, List.flatMap_assoc]
      exact congrArg (List.flatMap · _) (funext lineBreaks_encodeImapAddress)

/-- The texts of an envelope, in the order in which the response shows them. -/
def envelopeTexts (value : Json) : List String :=
  (textAt value "subject").toList ++ addressListTexts (value.get "from") ++
    addressListTexts (value.get "from") ++ addressListTexts (value.get "reply_to") ++
    addressListTexts (value.get "to") ++ addressListTexts (value.get "cc") ++
    addressListTexts (value.get "bcc") ++ (textAt value "message_id").toList

section Dates
variable {lib : Libraries} (dates : ∀ date, OneLine (lib.formatImapDate date))
include dates

theorem lineBreaks_date (date : Option Int) :
    (date.map lib.formatImapDate).toList.flatMap lineBreaks = [] := by
  cases date with
  | none => rfl
  | some date => simpa using (oneLine_iff _).mp (dates date)

theorem lineBreaks_encodeEnvelope (value : Json) :
    lineBreaks (encodeEnvelope lib value) = (envelopeTexts value).flatMap lineBreaks := by
  have opening : lineBreaks "(" = [] := by decide
  have closing : lineBreaks ")" = [] := by decide
  have date := lineBreaks_date dates (((value.get "date").bind Json.asI64).bind lib.fromTimestamp)
  simp only [encodeEnvelope, envelopeTexts, lineBreaks_append, lineBreaks_join, opening, closing,
    List.flatMap_cons, List.flatMap_nil, List.flatMap_append, lineBreaks_nstring, lineBreaks_nil,
    lineBreaks_encodeImapAddressList, List.nil_append, List.append_nil, List.append_assoc]
  rw [date, List.nil_append]

/-! ## BODYSTRUCTURE -/

omit dates in
/-- Induction over a body structure: the parts of a multipart and the message inside a message. -/
theorem bodystructure_induction {motive : Json → Prop}
    (step : ∀ value, (∀ part ∈ bodyParts value, motive part) →
      (∀ inner, value.get "bodystructure" = some inner → motive inner) → motive value)
    (value : Json) : motive value :=
  step value (fun part _ => bodystructure_induction step part)
    fun inner _ => bodystructure_induction step inner
termination_by sizeOf value
decreasing_by
  · exact sizeOf_bodyParts ‹_›
  · exact sizeOf_get ‹_›

def paramTexts (params : Option Json) : List String :=
  match params with
  | some (.obj fields) => (textParams fields).flatMap fun param => [param.1, param.2]
  | _ => []

omit dates in
theorem lineBreaks_encodeParamList (params : Option Json) :
    lineBreaks (encodeParamList params) = (paramTexts params).flatMap lineBreaks := by
  cases params with
  | none => rfl
  | some params =>
      cases params with
      | obj fields =>
          simp only [encodeParamList, paramTexts]
          rw [lineBreaks_parenthesized, List.flatMap_assoc, List.flatMap_assoc]
          simp
      | _ => exact lineBreaks_nil

/-- The texts of a body structure. Where a part has a charset, its other parameters are not
shown. -/
def bodystructureTexts (value : Json) : List String :=
  match bodyKind value with
  | .multipart =>
      ((bodyParts value).attach.flatMap fun part => bodystructureTexts part.1) ++
        (textAt value "subtype").toList ++ paramTexts (value.get "params")
  | .message =>
      paramTexts (value.get "params") ++ (textAt value "transfer_encoding").toList ++
        (value.get "envelope").toList.flatMap envelopeTexts ++
        (value.get "bodystructure").attach.toList.flatMap fun inner => bodystructureTexts inner.1
  | .single =>
      (textAt value "type").toList ++ (textAt value "subtype").toList ++
        (match textAt value "charset" with
          | some charset => [charset]
          | none => paramTexts (value.get "params")) ++
        (textAt value "transfer_encoding").toList
termination_by sizeOf value
decreasing_by
  · exact sizeOf_bodyParts part.2
  · exact sizeOf_get inner.2

omit dates in
theorem lineBreaks_default (text : Option String) (default : String)
    (plain : lineBreaks default = []) :
    lineBreaks (text.getD default) = text.toList.flatMap lineBreaks := by
  cases text with
  | none => simpa using plain
  | some text => simp

omit dates in
theorem lineBreaks_optional {α : Type} {f : α → String} {g : α → List String} (value : Option α)
    (encode : ∀ v, lineBreaks (f v) = (g v).flatMap lineBreaks) :
    lineBreaks ((value.map f).getD "NIL") = (value.toList.flatMap g).flatMap lineBreaks := by
  cases value with
  | none => exact lineBreaks_nil
  | some value => simpa using encode value

omit dates in
theorem lineBreaks_singleParams (value : Json) :
    lineBreaks (singleParams value) = (match textAt value "charset" with
      | some charset => [charset]
      | none => paramTexts (value.get "params")).flatMap lineBreaks := by
  unfold singleParams
  cases textAt value "charset" with
  | none => exact lineBreaks_encodeParamList _
  | some charset =>
      have opening : lineBreaks "(" = [] := by decide
      have name : lineBreaks "CHARSET" = [] := by decide
      have closing : lineBreaks ")" = [] := by decide
      simp [opening, name, closing]

omit dates in
theorem lineBreaks_encodeSinglePart {value : Json} (kind : bodyKind value = .single) :
    lineBreaks (encodeSinglePart value) = (bodystructureTexts value).flatMap lineBreaks := by
  have opening : lineBreaks "(" = [] := by decide
  have lines : lineBreaks (if eqIgnoreAsciiCase ((textAt value "type").getD "application") "text"
      then " 0 NIL NIL NIL)" else " NIL NIL NIL)") = [] := by
    split <;> decide
  have typeName := lineBreaks_default (textAt value "type") "application" (by decide)
  have subtype := lineBreaks_default (textAt value "subtype") "octet-stream" (by decide)
  have encoding := lineBreaks_default (textAt value "transfer_encoding") "7BIT" (by decide)
  rw [bodystructureTexts, kind]
  simp only [encodeSinglePart, transferEncoding, lineBreaks_append, lineBreaks_join, opening, lines,
    List.flatMap_cons, List.flatMap_nil, List.flatMap_append, lineBreaks_quoteImapString,
    lineBreaks_singleParams, lineBreaks_toString_int, lineBreaks_nil, typeName, subtype, encoding,
    List.nil_append, List.append_nil, List.append_assoc]

theorem lineBreaks_encodeBodystructure (value : Json) :
    lineBreaks (encodeBodystructure lib value) = (bodystructureTexts value).flatMap lineBreaks := by
  have opening : lineBreaks "(" = [] := by decide
  have closing : lineBreaks ")" = [] := by decide
  induction value using bodystructure_induction with
  | step value parts inner =>
      cases kind : bodyKind value with
      | multipart =>
          have subtype := lineBreaks_default (textAt value "subtype") "mixed" (by decide)
          have nested : (bodyParts value).attach.flatMap (fun part =>
              lineBreaks (encodeBodystructure lib part.1)) =
              (bodyParts value).attach.flatMap fun part =>
                (bodystructureTexts part.1).flatMap lineBreaks :=
            congrArg (List.flatMap · _) (funext fun part => parts part.1 part.2)
          rw [encodeBodystructure, bodystructureTexts, kind]
          simp only [lineBreaks_append, lineBreaks_join, opening, closing, List.flatMap_cons,
            List.flatMap_nil, List.flatMap_map, List.flatMap_append, List.flatMap_assoc,
            lineBreaks_quoteImapString, subtype, lineBreaks_encodeParamList, nested,
            List.nil_append, List.append_nil, List.append_assoc]
      | message =>
          have encoding := lineBreaks_default (textAt value "transfer_encoding") "7BIT" (by decide)
          have names : lineBreaks "\"message\"" = [] ∧ lineBreaks "\"rfc822\"" = [] := by decide
          have envelope := lineBreaks_optional (value.get "envelope") (lineBreaks_encodeEnvelope dates)
          have nested := lineBreaks_optional (value.get "bodystructure").attach
            (f := fun found => encodeBodystructure lib found.1)
            (g := fun found => bodystructureTexts found.1) fun found => inner found.1 found.2
          rw [encodeBodystructure, bodystructureTexts, kind]
          simp only [lineBreaks_append, lineBreaks_join, opening, closing, List.flatMap_cons,
            List.flatMap_nil, List.flatMap_append, lineBreaks_quoteImapString, transferEncoding,
            encoding, lineBreaks_encodeParamList, lineBreaks_toString_int, lineBreaks_nil, names,
            envelope, nested, List.nil_append, List.append_nil, List.append_assoc]
      | single =>
          rw [encodeBodystructure, kind]
          exact lineBreaks_encodeSinglePart kind

/-! ## The response -/

/-- The texts of the requested items: the flags, the envelope and the body structure. -/
def fetchTexts (view : MailboxMessageView) (items : List String) : List String :=
  (if items.contains "FLAGS" then view.flags else []) ++
    (if items.contains "ENVELOPE" then envelopeTexts view.envelopeJson else []) ++
    if items.contains "BODYSTRUCTURE" then bodystructureTexts view.bodystructureJson else []

omit dates in
theorem lineBreaks_item (wanted : Bool) (texts : List String) {text : String}
    (breaks : lineBreaks text = texts.flatMap lineBreaks) :
    (if wanted then [text] else []).flatMap lineBreaks =
      (if wanted then texts else []).flatMap lineBreaks := by
  cases wanted with
  | false => rfl
  | true => simpa using breaks

omit dates in
theorem lineBreaks_plainItem (wanted : Bool) {text : String} (plain : lineBreaks text = []) :
    (if wanted then [text] else []).flatMap lineBreaks = [] := by
  cases wanted with
  | false => rfl
  | true => simpa using plain

theorem lineBreaks_formatFetchResponse (sequenceNumber : Int) (view : MailboxMessageView)
    (items : List String) :
    lineBreaks (formatFetchResponse lib sequenceNumber view items) =
      (fetchTexts view items).flatMap lineBreaks := by
  have closing : lineBreaks ")" = [] := by decide
  have frame : lineBreaks "* " = [] ∧ lineBreaks " FETCH (" = [] := by decide
  have labels : lineBreaks "FLAGS (" = [] ∧ lineBreaks "UID " = [] ∧ lineBreaks "RFC822.SIZE " = [] ∧
      lineBreaks "INTERNALDATE " = [] ∧ lineBreaks "ENVELOPE " = [] ∧
      lineBreaks "BODYSTRUCTURE " = [] ∧ lineBreaks "MODSEQ (" = [] := by decide
  obtain ⟨flagsLabel, uidLabel, sizeLabel, dateLabel, envelopeLabel, bodyLabel, modseqLabel⟩ := labels
  have date := (oneLine_iff _).mp (dates (internalDate view))
  simp only [formatFetchResponse, fetchTexts, lineBreaks_append, lineBreaks_join, closing, frame,
    lineBreaks_toString_int, List.flatMap_append, List.nil_append, List.append_nil]
  rw [lineBreaks_item _ view.flags (by simp [flagsLabel, closing]),
    lineBreaks_plainItem _ (by simp [uidLabel]), lineBreaks_plainItem _ (by simp [sizeLabel]),
    lineBreaks_plainItem _ (by simp [dateLabel, date]),
    lineBreaks_item _ _ (by simpa [envelopeLabel] using lineBreaks_encodeEnvelope dates _),
    lineBreaks_item _ _ (by simpa [bodyLabel] using lineBreaks_encodeBodystructure dates _),
    lineBreaks_plainItem _ (by simp [modseqLabel, closing])]
  simp

end Dates

/-- Each of the three encoders answers with one line exactly when none of the texts it quotes has a
line break. -/
theorem responses_one_line_iff (lib : Libraries)
    (dates : ∀ date, OneLine (lib.formatImapDate date)) :
    (∀ envelope, OneLine (encodeEnvelope lib envelope) ↔ ∀ text ∈ envelopeTexts envelope, OneLine text) ∧
    (∀ bodystructure, OneLine (encodeBodystructure lib bodystructure) ↔
      ∀ text ∈ bodystructureTexts bodystructure, OneLine text) ∧
    ∀ sequenceNumber view items, OneLine (formatFetchResponse lib sequenceNumber view items) ↔
      ∀ text ∈ fetchTexts view items, OneLine text :=
  ⟨fun envelope => oneLine_iff_of_lineBreaks (lineBreaks_encodeEnvelope dates envelope),
    fun bodystructure =>
      oneLine_iff_of_lineBreaks (lineBreaks_encodeBodystructure dates bodystructure),
    fun sequenceNumber view items =>
      oneLine_iff_of_lineBreaks (lineBreaks_formatFetchResponse dates sequenceNumber view items)⟩

instance (text : String) : Decidable (OneLine text) :=
  List.decidableBAll (fun c => c ≠ '\r' ∧ c ≠ '\n') text.toList

theorem lineBreaks_padded (width n : Nat) : lineBreaks (Sample.padded width n) = [] := by
  have zeros : lineBreaks (String.ofList (List.replicate (width - (toString n).length) '0')) = [] := by
    rw [lineBreaks, String.toList_ofList, List.filter_replicate_of_neg (by decide)]
  rw [Sample.padded, lineBreaks_append, zeros, lineBreaks_toString_nat]
  rfl

theorem formatImapDate_oneLine (date : Int) : OneLine (Sample.formatImapDate date) := by
  have month (i : Nat) : lineBreaks (Sample.months.getD i "") = [] := by
    have all : ∀ name ∈ Sample.months, lineBreaks name = [] := by decide
    rw [List.getD_eq_getElem?_getD]
    cases found : Sample.months[i]? with
    | none => rfl
    | some name => exact all name (List.mem_of_getElem? found)
  have sign (year : Int) :
      lineBreaks (if year < 0 then "-" else if year > 9999 then "+" else "") = [] := by
    split
    · decide
    · split <;> decide
  have separators : lineBreaks "-" = [] ∧ lineBreaks " " = [] ∧ lineBreaks ":" = [] ∧
      lineBreaks " +0000" = [] := by decide
  rw [oneLine_iff]
  simp only [Sample.formatImapDate, lineBreaks_append, lineBreaks_padded, month, sign, separators,
    List.append_nil]

/-- A message whose subject has no line break. -/
theorem responses_one_line_iff_plainSubject :
    OneLine (formatFetchResponse Sample.libraries 1 (Sample.view 1 ["\\Seen"] "hi")
      ["FLAGS", "UID", "INTERNALDATE", "ENVELOPE"]) := by
  apply ((responses_one_line_iff Sample.libraries formatImapDate_oneLine).2.2 1
    (Sample.view 1 ["\\Seen"] "hi") ["FLAGS", "UID", "INTERNALDATE", "ENVELOPE"]).mpr
  decide +kernel

/-- A subject that decodes to two lines ends the response after the first and starts another. -/
theorem subject_starts_line :
    ¬ (∀ sequenceNumber view items,
      OneLine (formatFetchResponse Sample.libraries sequenceNumber view items)) := by
  intro oneLine
  have response := oneLine 1 (Sample.view 1 [] "a\r\n* BYE") ["ENVELOPE"]
  revert response
  decide +kernel

end ImapCache.Responses
