import ImapCache.Proof.FetchSections

/-!
# The round trip of FETCH items

A list of items is printed in a FETCH line, the line is split into tokens and the list into items, and each
item is read back as the section, the part number, the names and the range that it was printed from.
-/

namespace ImapCache.FetchGrammar
open Lib Protocol CommandStream
open Commands (isDigit_of_mem_toString)
open PartNumbers (numberText numberTail)
open UpstreamClient (BareWord)

/-! ## Bodies -/

def bodyCore (part : Option PartNumber) (bodySection : Section) : List Char :=
  "BODY[".toList ++ (partText part bodySection ++ [']'])

theorem exists_digit (part : PartNumber) :
    ∃ d rest, (numberText part.numbers).toList = d :: rest ∧ d.isDigit = true := by
  obtain ⟨k, ks, isNumbers⟩ := List.exists_cons_of_ne_nil part.nonempty
  obtain ⟨d, digits, isDigits⟩ := List.exists_cons_of_ne_nil (Commands.toString_ne_nil k)
  refine ⟨d, digits ++ (numberTail ks).toList, ?_,
    isDigit_of_mem_toString (n := k) (by rw [isDigits]; exact List.mem_cons_self)⟩
  rw [isNumbers, numberText, String.toList_append, isDigits, List.cons_append]

def opensPart (item : List Char) : Bool :=
  ((stripPrefix "BODY[".toList item).bind List.head?).any Char.isDigit

theorem wholeSection_part (part : PartNumber) (bodySection : Section) :
    wholeSection (bodyCore (some part) bodySection) = none := by
  obtain ⟨d, rest, isNumber, digit⟩ := exists_digit part
  have shape : bodyCore (some part) bodySection =
      "BODY[".toList ++ d :: (rest ++ (sectionSuffix bodySection ++ [']'])) := by
    have core : bodyCore (some part) bodySection =
        "BODY[".toList ++ (partText (some part) bodySection ++ [']']) := rfl
    rw [core, partText_some, isNumber]
    simp
  have opens : opensPart (bodyCore (some part) bodySection) = true := by
    rw [opensPart, shape, stripPrefix_append]
    exact digit
  have named : wholeNames.all (fun name => !opensPart name.toList) = true := by decide +kernel
  have other : String.ofList (bodyCore (some part) bodySection) ∉ wholeNames := by
    intro isName
    have closed := List.all_eq_true.mp named _ isName
    rw [String.toList_ofList, opens] at closed
    cases closed
  have notFields (head : String) {letter : Char} {others : List Char}
      (isHead : head.toList = "BODY[".toList ++ letter :: others) (noDigit : letter.isDigit = false) :
      namesBehind head (bodyCore (some part) bodySection) = none := by
    have differ : letter ≠ d := by
      rintro rfl
      rw [digit] at noDigit
      cases noDigit
    have notPrefix : ¬ head.toList.isPrefixOf (bodyCore (some part) bodySection) = true := by
      rw [isHead, shape, List.isPrefixOf_iff_prefix, List.prefix_append_right_inj]
      exact fun starts => differ (List.cons_prefix_cons.mp starts).1
    rw [namesBehind, stripPrefix, if_neg notPrefix]
    rfl
  rw [wholeSection_fields other, notFields "BODY[HEADER.FIELDS (" rfl (by decide),
    notFields "BODY[HEADER.FIELDS.NOT (" rfl (by decide)]
  rfl

theorem parseBodyPartFetchRequest_part (part : PartNumber) (bodySection : Section) :
    parseBodyPartFetchRequest (bodyCore (some part) bodySection) =
      .ok (some (numberText part.numbers, bodySection.read)) := by
  obtain ⟨d, rest, isNumber, -⟩ := exists_digit part
  have inner : (stripPrefix "BODY[".toList (bodyCore (some part) bodySection)).bind (stripSuffix [']']) =
      some (partText (some part) bodySection) := by
    have core : bodyCore (some part) bodySection =
        "BODY[".toList ++ (partText (some part) bodySection ++ [']']) := rfl
    rw [core, stripPrefix_append, Option.bind_some, stripSuffix_append]
  have nonempty : (partText (some part) bodySection).isEmpty = false := by
    rw [partText_some, isNumber]
    rfl
  unfold parseBodyPartFetchRequest
  rw [inner]
  dsimp only
  rw [if_neg (by rw [nonempty]; exact Bool.false_ne_true), partSection_partText]

theorem parseRawFetchRequest_eq {text core : List Char} {peek : Bool} {range : Option Range}
    (peeks : "BODY.PEEK[".toList.isPrefixOf text = peek)
    (normalized : (if peek then "BODY[".toList ++ text.drop "BODY.PEEK[".toList.length else text) =
      core ++ rangeText range)
    (ends : core.getLast? ≠ some '>') :
    parseRawFetchRequest (String.ofList text) = match wholeSection core with
      | some (bodySection, canPeek) =>
          .ok (some ⟨String.ofList text, .whole bodySection, range.map Range.request, peek && canPeek⟩)
      | none => (parseBodyPartFetchRequest core).map fun part => part.map fun part =>
          ⟨String.ofList text, .part part.1 part.2, range.map Range.request, peek⟩ := by
  have label : (String.ofList text).toList = text := String.toList_ofList
  unfold parseRawFetchRequest
  dsimp only
  rw [label, peeks, normalized, splitRange_rangeText ends]
  simp only [bind, Except.bind]
  cases wholeSection core with
  | some found => rfl
  | none => cases parseBodyPartFetchRequest core <;> rfl

def rawSection (part : Option PartNumber) (bodySection : FetchBodySection) : RawFetchSection :=
  match part with
  | none => .whole bodySection
  | some part => .part (numberText part.numbers) bodySection

theorem parseRawFetchRequest_body (peek : Bool) (part : Option PartNumber) (bodySection : Section)
    (range : Option Range) :
    parseRawFetchRequest (String.ofList (Item.body peek part bodySection range).chars) =
      .ok (some ⟨String.ofList (Item.body peek part bodySection range).chars,
        rawSection part bodySection.read, range.map Range.request, peek⟩) := by
  let inside := partText part bodySection ++ ']' :: rangeText range
  have text : (Item.body peek part bodySection range).chars = bodyHead peek ++ inside := rfl
  have core : bodyCore part bodySection = "BODY[".toList ++ (partText part bodySection ++ [']']) := rfl
  have peeks : "BODY.PEEK[".toList.isPrefixOf (Item.body peek part bodySection range).chars = peek := by
    rw [text]
    cases peek <;> rfl
  have normalized : (if peek then "BODY[".toList ++
      (Item.body peek part bodySection range).chars.drop "BODY.PEEK[".toList.length
      else (Item.body peek part bodySection range).chars) = bodyCore part bodySection ++ rangeText range := by
    have whole : bodyCore part bodySection ++ rangeText range = "BODY[".toList ++ inside := by
      rw [core]
      simp [inside]
    rw [text, whole]
    cases peek <;> rfl
  have ends : (bodyCore part bodySection).getLast? ≠ some '>' := by
    rw [core, ← List.append_assoc, List.getLast?_concat]
    decide
  rw [parseRawFetchRequest_eq peeks normalized ends]
  cases part with
  | none =>
      have read : wholeSection (bodyCore none bodySection) = some (bodySection.read, true) :=
        wholeSection_body bodySection
      rw [read]
      dsimp only
      rw [Bool.and_true]
      rfl
  | some part =>
      rw [wholeSection_part, parseBodyPartFetchRequest_part]
      rfl

/-! ## Items without brackets -/

theorem stripPrefix_eq_none {head text : List Char} {c : Char} (inHead : c ∈ head) (absent : c ∉ text) :
    stripPrefix head text = none := by
  refine if_neg fun starts => absent ?_
  exact (List.isPrefixOf_iff_prefix.mp starts).subset inHead

theorem parseRawFetchRequest_rfc822 (bodySection : MessageSection) (range : Option Range) :
    parseRawFetchRequest (String.ofList (Item.rfc822 bodySection range).chars) =
      .ok (some ⟨String.ofList (Item.rfc822 bodySection range).chars, .whole bodySection.request,
        range.map Range.request, false⟩) := by
  have text : (Item.rfc822 bodySection range).chars = bodySection.name.toList ++ rangeText range := rfl
  have peeks : "BODY.PEEK[".toList.isPrefixOf (Item.rfc822 bodySection range).chars = false := by
    cases bodySection <;> rfl
  have ends : bodySection.name.toList.getLast? ≠ some '>' := by cases bodySection <;> decide
  have read : wholeSection bodySection.name.toList = some (bodySection.request, false) := by
    cases bodySection <;> decide +kernel
  rw [parseRawFetchRequest_eq peeks text ends, read]
  rfl

theorem parseRawFetchRequest_atom {text : List Char} (noBracket : '[' ∉ text) (noEnd : '>' ∉ text)
    (other : String.ofList text ∉ ["RFC822", "RFC822.HEADER", "RFC822.TEXT"]) :
    parseRawFetchRequest (String.ofList text) = .ok none := by
  have peeks : "BODY.PEEK[".toList.isPrefixOf text = false := by
    rw [← Bool.not_eq_true, List.isPrefixOf_iff_prefix]
    exact fun starts => noBracket (starts.subset (by decide))
  have ends : text.getLast? ≠ some '>' := fun last => noEnd (List.mem_of_getLast? last)
  have named : wholeNames.all (fun name => ["RFC822", "RFC822.HEADER", "RFC822.TEXT"].contains name ||
      name.toList.contains '[') = true := by decide +kernel
  have unnamed : String.ofList text ∉ wholeNames := by
    intro isName
    have kind := List.all_eq_true.mp named _ isName
    rw [Bool.or_eq_true, List.contains_iff_mem, List.contains_iff_mem, String.toList_ofList] at kind
    exact kind.elim other noBracket
  have noSection : wholeSection text = none := by
    rw [wholeSection_fields unnamed, namesBehind, namesBehind,
      stripPrefix_eq_none (c := '[') (by decide) noBracket, stripPrefix_eq_none (c := '[') (by decide) noBracket]
    rfl
  have noPart : parseBodyPartFetchRequest text = .ok none := by
    unfold parseBodyPartFetchRequest
    rw [stripPrefix_eq_none (c := '[') (by decide) noBracket]
    rfl
  have whole : text = text ++ rangeText none := (List.append_nil text).symm
  rw [@parseRawFetchRequest_eq text text false none peeks whole ends, noSection, noPart]
  rfl

/-! ## Upper case -/

theorem toUpper_of_digit {c : Char} (char : c.isDigit = true ∨ c = '.') : c.toUpper = c := by
  refine Char.toUpper_eq_of_not_isLower fun lower => ?_
  rcases char with digit | rfl
  · have low : 97 ≤ c.val ∧ c.val ≤ 122 := by simpa [Char.isLower] using lower
    have high : 48 ≤ c.val ∧ c.val ≤ 57 := by simpa [Char.isDigit] using digit
    exact absurd (UInt32.le_trans low.1 high.2) (by decide)
  · exact absurd lower (by decide)

theorem toUpper_digits {text : List Char} (chars : ∀ c ∈ text, c.isDigit = true ∨ c = '.') :
    text.map Char.toUpper = text :=
  (List.map_congr_left fun c member => toUpper_of_digit (chars c member)).trans (List.map_id text)

theorem marker_chars (range : Range) : ∀ c ∈ range.marker, c.isDigit = true ∨ c = '.' := by
  intro c member
  unfold Range.marker at member
  rcases List.mem_append.mp member with inOffset | inCount
  · exact .inl (isDigit_of_mem_toString inOffset)
  · cases count : range.count with
    | none =>
        rw [count] at inCount
        exact absurd inCount List.not_mem_nil
    | some k =>
        rw [count] at inCount
        rcases List.mem_cons.mp inCount with dot | inside
        · exact .inr dot
        · exact .inl (isDigit_of_mem_toString inside)

theorem toUpper_rangeText (range : Option Range) : (rangeText range).map Char.toUpper = rangeText range := by
  cases range with
  | none => rfl
  | some range =>
      rw [rangeText, List.map_cons, List.map_append, toUpper_digits (marker_chars range)]
      rfl

theorem toAsciiUppercase_toList (text : String) :
    (toAsciiUppercase text).toList = text.toList.map Char.toUpper := String.toList_ofList

def FieldName.upper (name : FieldName) : FieldName where
  text := toAsciiUppercase name.text
  isWord := by
    refine ⟨fun isEmpty => name.isWord.1 ?_, fun c member => ?_⟩
    · rw [toAsciiUppercase_toList] at isEmpty
      exact List.map_eq_nil_iff.mp isEmpty
    · rw [toAsciiUppercase_toList] at member
      obtain ⟨d, inName, rfl⟩ := List.mem_map.mp member
      rw [isWhitespace_toUpper]
      exact name.isWord.2 d inName
  plain := by
    intro c member
    rw [toAsciiUppercase_toList] at member
    obtain ⟨d, inName, rfl⟩ := List.mem_map.mp member
    have plain := name.plain d inName
    simp only [List.mem_cons, List.not_mem_nil, or_false] at plain ⊢
    rwa [toUpper_eq_iff (by decide), toUpper_eq_iff (by decide), toUpper_eq_iff (by decide),
      toUpper_eq_iff (by decide), toUpper_eq_iff (by decide)]

def Section.upper : Section → Section
  | .fields names negated => .fields (names.map FieldName.upper) negated
  | bodySection => bodySection

theorem fieldTexts_upper (names : List FieldName) :
    fieldTexts (names.map FieldName.upper) = (fieldTexts names).map toAsciiUppercase := by
  rw [fieldTexts, fieldTexts, List.map_map, List.map_map]
  rfl

theorem read_upper (bodySection : Section) : bodySection.upper.read = bodySection.request := by
  cases bodySection with
  | fields names negated =>
      rw [Section.upper, Section.read, fieldTexts_upper]
      rfl
  | _ => rfl

theorem toUpper_join (texts : List String) :
    (Responses.join texts).toList.map Char.toUpper = (Responses.join (texts.map toAsciiUppercase)).toList := by
  unfold Responses.join
  induction texts with
  | nil => rfl
  | cons text texts ih =>
      cases texts with
      | nil =>
          rw [List.map_singleton, String.intercalate_singleton, String.intercalate_singleton,
            toAsciiUppercase_toList]
      | cons next rest =>
          rw [List.map_cons] at ih
          rw [List.map_cons, List.map_cons, String.intercalate_cons_cons, String.intercalate_cons_cons,
            String.toList_append, String.toList_append, String.toList_append, String.toList_append,
            List.map_append, List.map_append, ih, toAsciiUppercase_toList]
          rfl

theorem toUpper_sectionChars (bodySection : Section) :
    bodySection.chars.map Char.toUpper = bodySection.upper.chars := by
  cases bodySection with
  | full => rfl
  | header => decide
  | text => decide
  | mime => decide
  | fields names negated =>
      have head : (fieldsHead negated).map Char.toUpper = fieldsHead negated := by
        cases negated <;> decide
      have text : (Section.fields names negated).chars =
          fieldsHead negated ++ ((Responses.join (fieldTexts names)).toList ++ [')']) := rfl
      rw [text, List.map_append, List.map_append, head, toUpper_join, ← fieldTexts_upper]
      rfl

theorem toUpper_partText (part : Option PartNumber) (bodySection : Section) :
    (partText part bodySection).map Char.toUpper = partText part bodySection.upper := by
  have inside := toUpper_sectionChars bodySection
  cases part with
  | none => exact inside
  | some part =>
      have suffix : (sectionSuffix bodySection).map Char.toUpper = sectionSuffix bodySection.upper := by
        cases bodySection with
        | full => rfl
        | _ => exact congrArg ('.' :: ·) inside
      rw [partText_some, partText_some, List.map_append, toUpper_digits (numberText_chars part.numbers), suffix]

theorem toUpper_body (peek : Bool) (part : Option PartNumber) (bodySection : Section) (range : Option Range) :
    (Item.body peek part bodySection range).chars.map Char.toUpper =
      (Item.body peek part bodySection.upper range).chars := by
  have head : (bodyHead peek).map Char.toUpper = bodyHead peek := by cases peek <;> decide
  rw [Item.chars, List.map_append, List.map_append, List.map_cons, head, toUpper_partText, toUpper_rangeText]
  rfl

theorem toUpper_rfc822 (bodySection : MessageSection) (range : Option Range) :
    (Item.rfc822 bodySection range).chars.map Char.toUpper = (Item.rfc822 bodySection range).chars := by
  have name : bodySection.name.toList.map Char.toUpper = bodySection.name.toList := by
    cases bodySection <;> decide
  rw [Item.chars, List.map_append, name, toUpper_rangeText]

theorem parseRawFetchRequest_label (item : Item) : parseRawFetchRequest item.label = .ok item.request := by
  unfold Item.label
  cases item with
  | metadata name =>
      have absent {c : Char} (special : c ∈ ['"', '(', ')', '[', ']', '>']) (noLetter : c.isAlpha = false) :
          c ∉ name.text.map Char.toUpper := by
        intro member
        obtain ⟨d, inName, same⟩ := List.mem_map.mp member
        rw [toUpper_eq_iff noLetter] at same
        exact (name.chars d inName).2 (same ▸ special)
      exact parseRawFetchRequest_atom (absent (by decide) (by decide)) (absent (by decide) (by decide)) name.other
  | rfc822 bodySection range =>
      rw [toUpper_rfc822, parseRawFetchRequest_rfc822, Item.request, Item.label, toUpper_rfc822]
  | body peek part bodySection range =>
      have request : (Item.body peek part bodySection range).request =
          some ⟨(Item.body peek part bodySection range).label, rawSection part bodySection.request,
            range.map Range.request, peek⟩ := by cases part <;> rfl
      rw [toUpper_body, parseRawFetchRequest_body, read_upper, request, Item.label, toUpper_body]

/-! ## Lines -/

/-- An item in any letter case. -/
structure Spelled where
  item : Item
  text : String
  same : text.toList.map Char.toUpper = item.chars.map Char.toUpper

/-- The items in parentheses, or one item bare. -/
inductive Printed where
  | list (first : Spelled) (others : List Spelled)
  | bare (item : Spelled)

namespace Printed

def items : Printed → List Spelled
  | list first others => first :: others
  | bare item => [item]

def token (printed : Printed) : String :=
  match printed with
  | list _ _ => String.ofList ('(' :: ((Responses.join (printed.items.map (·.text))).toList ++ [')']))
  | bare item => item.text

end Printed

theorem token_list_toList (first : Spelled) (others : List Spelled) : (Printed.list first others).token.toList =
    '(' :: ((Responses.join ((first :: others).map (·.text))).toList ++ [')']) := String.toList_ofList

theorem Spelled.balanced (spelled : Spelled) : Balanced spelled.text.toList :=
  balanced_of_spelled spelled.item.balanced spelled.same

theorem Spelled.upper (spelled : Spelled) : toAsciiUppercase spelled.text = spelled.item.label := by
  rw [toAsciiUppercase, spelled.same]
  rfl

theorem Item.notList (item : Item) : item.chars.head? ≠ some '(' ∧ item.chars.getLast? ≠ some ')' := by
  have ofPlain {text : List Char} (plain : Plain text) :
      text.head? ≠ some '(' ∧ text.getLast? ≠ some ')' := by
    refine ⟨fun first => ?_, fun last => ?_⟩
    · exact absurd (plain _ (List.mem_of_head? first)).1 (by decide)
    · exact absurd (plain _ (List.mem_of_getLast? last)).1 (by decide)
  cases item with
  | metadata name => exact ofPlain name.plain
  | rfc822 bodySection range => exact ofPlain (plain_rfc822 bodySection range)
  | body peek part bodySection range =>
      have text : (Item.body peek part bodySection range).chars =
          bodyHead peek ++ (partText part bodySection ++ ']' :: rangeText range) := rfl
      constructor
      · rw [text]
        cases peek <;> exact fun first => absurd (Option.some.inj first) (by decide)
      · obtain ⟨before, last, shape, other⟩ : ∃ before last,
            ']' :: rangeText range = before ++ [last] ∧ last ≠ ')' := by
          cases range with
          | none => exact ⟨[], ']', rfl, by decide⟩
          | some range => exact ⟨']' :: '<' :: range.marker, '>', rfl, by decide⟩
        rw [text, shape, ← List.append_assoc, ← List.append_assoc, List.getLast?_concat]
        exact fun closes => other (Option.some.inj closes)

theorem Spelled.notList (spelled : Spelled) :
    spelled.text.toList.head? ≠ some '(' ∧ spelled.text.toList.getLast? ≠ some ')' := by
  obtain ⟨noOpen, noClose⟩ := spelled.item.notList
  constructor
  · intro first
    have upper : (spelled.text.toList.map Char.toUpper).head? = some '(' := by
      rw [List.head?_map, first]
      rfl
    rw [spelled.same, List.head?_map] at upper
    obtain ⟨c, isFirst, same⟩ := Option.map_eq_some_iff.mp upper
    exact noOpen ((toUpper_eq_iff (by decide)).mp same ▸ isFirst)
  · intro last
    have upper : (spelled.text.toList.map Char.toUpper).getLast? = some ')' := by
      rw [List.getLast?_map, last]
      rfl
    rw [spelled.same, List.getLast?_map] at upper
    obtain ⟨c, isLast, same⟩ := Option.map_eq_some_iff.mp upper
    exact noClose ((toUpper_eq_iff (by decide)).mp same ▸ isLast)

theorem parseFetchItems_token (printed : Printed) :
    parseFetchItems [printed.token] = printed.items.map (·.item.label) := by
  have labels (items : List Spelled) :
      (items.map (·.text)).map toAsciiUppercase = items.map (·.item.label) := by
    rw [List.map_map]
    exact List.map_congr_left fun spelled _ => spelled.upper
  cases printed with
  | list first others =>
      have balanced : ∀ text ∈ (first :: others).map (·.text), Balanced text.toList := by
        intro text member
        obtain ⟨spelled, -, rfl⟩ := List.mem_map.mp member
        exact spelled.balanced
      exact (parseFetchItems_list (by simp) balanced).trans (labels (first :: others))
  | bare item =>
      exact (parseFetchItems_bare item.balanced item.notList.1 item.notList.2).trans (labels [item])

theorem depths_join {texts : List String} (balanced : ∀ text ∈ texts, Balanced text.toList) :
    depths (1, 0) (Responses.join texts).toList = some (1, 0) := by
  unfold Responses.join
  induction texts with
  | nil => rfl
  | cons text texts ih =>
      have first := (balanced text List.mem_cons_self).level (1, 0)
      cases texts with
      | nil => rwa [String.intercalate_singleton]
      | cons next rest =>
          have others := ih fun text member => balanced text (List.mem_cons_of_mem _ member)
          have space : depths (1, 0) " ".toList = some (1, 0) := by decide
          rw [String.intercalate_cons_cons, String.toList_append, String.toList_append, depths_append,
            depths_append, first, Option.bind_some, space, Option.bind_some, others]

theorem tokens_token (line : List Char) (printed : Printed) :
    tokens line printed.token.toList = .ok [printed.token] := by
  cases printed with
  | list first others =>
      have balanced : ∀ text ∈ (first :: others).map (·.text), Balanced text.toList := by
        intro text member
        obtain ⟨spelled, -, rfl⟩ := List.mem_map.mp member
        exact spelled.balanced
      have whole : depths (0, 0) ('(' :: ((Responses.join ((first :: others).map (·.text))).toList ++ [')'])) =
          some (0, 0) := by
        rw [depths_cons_eq_some]
        refine ⟨(1, 0), rfl, ?_⟩
        rw [depths_append, depths_join balanced]
        rfl
      rw [token_list_toList, tokens_of_depths line (by decide) (by decide) whole]
      rfl
  | bare item =>
      obtain ⟨c, rest, shape, visible⟩ := item.balanced.first
      have whole := item.balanced.level (0, 0)
      have unquoted := item.balanced.unquoted
      rw [shape] at whole unquoted
      have text : (Printed.bare item).token.toList = c :: rest := shape
      rw [text, tokens_of_depths line visible (fun quote => unquoted (quote ▸ List.mem_cons_self)) whole,
        ← text, String.ofList_toList]

/-- A line with words before its items, as the numbers of the messages are. -/
def fetchLine (tag name : BareWord) (before : List BareWord) (printed : Printed) : List Char :=
  tag.text ++ ' ' :: (name.text ++ (before.flatMap fun word => ' ' :: word.text) ++ ' ' :: printed.token.toList)

def fetchCommand (tag name : BareWord) (before : List BareWord) (printed : Printed) : ParsedCommand :=
  ⟨String.ofList tag.text, String.ofList name.text,
    (before.map fun word => String.ofList word.text) ++ [printed.token]⟩

theorem tokens_words (line : List Char) (before : List BareWord) {rest : List Char}
    (ends : rest = [] ∨ ∃ after, rest = ' ' :: after) :
    tokens line ((before.flatMap fun word => ' ' :: word.text) ++ rest) =
      (tokens line rest).map ((before.map fun word => String.ofList word.text) ++ ·) := by
  induction before with
  | nil =>
      change tokens line rest = (tokens line rest).map id
      cases tokens line rest <;> rfl
  | cons word before ih =>
      have next : (before.flatMap fun word => ' ' :: word.text) ++ rest = [] ∨
          ∃ after, (before.flatMap fun word => ' ' :: word.text) ++ rest = ' ' :: after := by
        cases before with
        | nil => exact ends
        | cons word before => exact .inr ⟨_, rfl⟩
      rw [List.flatMap_cons, List.append_assoc, List.cons_append, tokens_space line _ (by decide),
        word.token line next, ih]
      cases tokens line rest <;> rfl

theorem tokens_fetchLine (line : List Char) (tag name : BareWord) (before : List BareWord) (printed : Printed) :
    tokens line (fetchLine tag name before printed) =
      .ok (String.ofList tag.text :: String.ofList name.text :: (fetchCommand tag name before printed).args) := by
  have nameEnds : (before.flatMap fun word => ' ' :: word.text) ++ ' ' :: printed.token.toList = [] ∨
      ∃ after, (before.flatMap fun word => ' ' :: word.text) ++ ' ' :: printed.token.toList = ' ' :: after := by
    cases before with
    | nil => exact .inr ⟨_, rfl⟩
    | cons word before => exact .inr ⟨_, rfl⟩
  rw [fetchLine, tag.token line (.inr ⟨_, rfl⟩), tokens_space line _ (by decide), List.append_assoc,
    name.token line nameEnds, tokens_words line before (.inr ⟨_, rfl⟩), tokens_space line _ (by decide),
    tokens_token]
  rfl

theorem trimLineEnd_fetchLine (tag name : BareWord) (before : List BareWord) (printed : Printed) :
    trimLineEnd (fetchLine tag name before printed) = fetchLine tag name before printed := by
  obtain ⟨chars, last, shape, visible⟩ : ∃ chars last, printed.token.toList = chars ++ [last] ∧
      isWhitespace last = false := by
    cases printed with
    | list first others =>
        let inside := (Responses.join ((first :: others).map (·.text))).toList
        refine ⟨'(' :: inside, ')', ?_, by decide⟩
        rw [token_list_toList, List.cons_append]
    | bare item => exact item.balanced.last
  have text : fetchLine tag name before printed =
      (tag.text ++ ' ' :: (name.text ++ (before.flatMap fun word => ' ' :: word.text) ++ ' ' :: chars)) ++ [last] := by
    rw [fetchLine, shape]
    simp
  rw [text, UpstreamClient.trimLineEnd_append_cons _ (UpstreamClient.isLineBreak_of_visible visible)]
  rfl

theorem fetch_items_read_back (tag name : BareWord) (before : List BareWord) (printed : Printed) :
    parseCommand (String.ofList (fetchLine tag name before printed)) =
        .ok (some (fetchCommand tag name before printed)) ∧
      parseCommand (String.ofList (fetchLine tag name before printed ++ crlf)) =
        .ok (some (fetchCommand tag name before printed)) ∧
      parseFetchItems ((fetchCommand tag name before printed).args.drop before.length) =
        printed.items.map (·.item.label) ∧
      ∀ spelled ∈ printed.items, parseRawFetchRequest spelled.item.label = .ok spelled.item.request := by
  have nonempty : fetchLine tag name before printed ≠ [] := by simp [fetchLine]
  have read := tokens_fetchLine (fetchLine tag name before printed) tag name before printed
  refine ⟨UpstreamClient.parseCommand_of_tokens ?_ nonempty read,
    UpstreamClient.parseCommand_of_tokens ?_ nonempty read, ?_, fun spelled _ => ?_⟩
  · rw [String.toList_ofList, trimLineEnd_fetchLine]
  · rw [String.toList_ofList, UpstreamClient.trimLineEnd_crlf, trimLineEnd_fetchLine]
  · have words : (fetchCommand tag name before printed).args.drop before.length = [printed.token] :=
      List.drop_left' (List.length_map _)
    rw [words, parseFetchItems_token]
  · exact parseRawFetchRequest_label spelled.item

end ImapCache.FetchGrammar
