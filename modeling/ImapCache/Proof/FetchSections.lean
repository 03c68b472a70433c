import Mathlib
import ImapCache.Lib.Occurrences
import ImapCache.Proof.FetchGrammar

/-!
# The readers of ranges and sections

An item is read from its end: the range behind the last angle bracket is taken off first, and what is left is
a section of the message, or a part number before the first section marker.
-/

namespace ImapCache.FetchGrammar
open Lib Protocol CommandStream
open Commands (isDigit_of_mem_toString)
open PartNumbers (numberText numberTail)

/-! ## Ranges -/

theorem splitOn_marker (range : Range) : range.marker.splitOn '.' =
    (toString range.offset).toList :: (range.count.map fun count => (toString count).toList).toList := by
  have noDot (n : Nat) : '.' ∉ (toString n).toList := by
    intro member
    exact absurd (isDigit_of_mem_toString member) (by decide)
  let offset := (toString range.offset).toList
  unfold Range.marker
  cases range.count with
  | none =>
      have split : (['.'].intercalate [offset]).splitOn '.' = [offset] := by
        refine List.splitOn_intercalate '.' (fun text member => ?_) (List.cons_ne_nil _ _)
        rw [List.mem_singleton.mp member]
        exact noDot range.offset
      rw [List.intercalate_singleton] at split
      rw [List.append_nil]
      exact split
  | some c =>
      let count := (toString c).toList
      have split : (['.'].intercalate [offset, count]).splitOn '.' = [offset, count] := by
        refine List.splitOn_intercalate '.' (fun text member => ?_) (List.cons_ne_nil _ _)
        rcases List.mem_cons.mp member with rfl | last
        · exact noDot range.offset
        · rw [List.mem_singleton.mp last]
          exact noDot c
      rw [List.intercalate_cons_cons, List.intercalate_singleton, List.append_assoc] at split
      exact split

theorem parseU64_of_lt {n : Nat} (fits : n < 18446744073709551616) : parseU64 (toString n).toList = some n := by
  rw [parseU64_toString, if_pos fits]

theorem not_mem_marker (range : Range) : '<' ∉ range.marker ++ ['>'] := by
  intro member
  rcases List.mem_append.mp member with inMarker | closing
  · have digit (n : Nat) : '<' ∉ (toString n).toList := fun inside =>
      absurd (isDigit_of_mem_toString inside) (by decide)
    unfold Range.marker at inMarker
    rcases List.mem_append.mp inMarker with inOffset | inCount
    · exact digit _ inOffset
    · cases count : range.count with
      | none =>
          rw [count] at inCount
          exact absurd inCount List.not_mem_nil
      | some c =>
          rw [count] at inCount
          rcases List.mem_cons.mp inCount with dot | inside
          · exact absurd dot (by decide)
          · exact digit _ inside
  · exact absurd (List.mem_singleton.mp closing) (by decide)

theorem splitRange_rangeText {core : List Char} (ends : core.getLast? ≠ some '>') (range : Option Range) :
    splitRange (core ++ rangeText range) = .ok (some (core, range.map Range.request)) := by
  cases range with
  | none =>
      rw [rangeText, List.append_nil]
      unfold splitRange
      dsimp only
      split
      · rw [if_neg ends]
        rfl
      · rfl
  | some range =>
      have opening : Slice.findOffset (fun rest => rest.head? == some '<' && !rest.tail.contains '<')
          (core ++ rangeText (some range)) = some (Slice.byteLength core) :=
        Slice.findOffset_last core (not_mem_marker range)
      have shape : core ++ rangeText (some range) = (core ++ ['<']) ++ range.marker ++ ['>'] := by
        simp [rangeText]
      have closes : (core ++ rangeText (some range)).getLast? = some '>' := by
        rw [shape, List.getLast?_concat]
      have start : Slice.byteLength core + 1 = Slice.byteLength (core ++ ['<']) := by
        rw [Slice.byteLength_append]
        rfl
      have stop : Slice.byteLength (core ++ rangeText (some range)) - 1 =
          Slice.byteLength ((core ++ ['<']) ++ range.marker) := by
        rw [shape, Slice.byteLength_append _ ['>']]
        exact Nat.add_sub_cancel _ 1
      have between : textBetween (core ++ rangeText (some range)) (Slice.byteLength core + 1)
          (Slice.byteLength (core ++ rangeText (some range)) - 1) = .ok range.marker := by
        rw [textBetween, start, stop, shape, Slice.slice_append]
        rfl
      have upTo : textUpTo (core ++ rangeText (some range)) (Slice.byteLength core) = .ok core := by
        rw [textUpTo, Slice.takeBytes_append]
        rfl
      have offset := parseU64_of_lt range.fits.1
      have count : ((range.count.map fun count => (toString count).toList).toList.head?).bind parseU64 =
          range.count := by
        cases shape : range.count with
        | none => rfl
        | some c => exact parseU64_of_lt (range.fits.2 c shape)
      unfold splitRange
      simp only [opening, closes, between, upTo, splitOn_marker, offset, bind, Except.bind, ↓reduceIte,
        Option.map_some]
      rw [count]
      rfl

/-! ## Sections of the message -/

theorem stripPrefix_append (head rest : List Char) : stripPrefix head (head ++ rest) = some rest := by
  have starts : head.isPrefixOf (head ++ rest) = true :=
    List.isPrefixOf_iff_prefix.mpr (List.prefix_append head rest)
  rw [stripPrefix, if_pos starts, List.drop_left]

theorem stripSuffix_append (text tail : List Char) : stripSuffix tail (text ++ tail) = some text := by
  have ends : tail.isSuffixOf (text ++ tail) = true :=
    List.isSuffixOf_iff_suffix.mpr (List.suffix_append text tail)
  rw [stripSuffix, if_pos ends, List.length_append, Nat.add_sub_cancel, List.take_left]

def wholeNames : List String :=
  ["RFC822", "RFC822.HEADER", "RFC822.TEXT", "BODY[]", "BODY.PEEK[]", "BODY[HEADER]", "BODY[TEXT]",
    "BODY[MIME]"]

/-- The names in the parentheses behind the head of a section. -/
def namesBehind (head : String) (item : List Char) : Option (List Char) :=
  (stripPrefix head.toList item).bind (stripSuffix [')', ']'])

theorem wholeSection_fields {item : List Char} (other : String.ofList item ∉ wholeNames) :
    wholeSection item =
      ((namesBehind "BODY[HEADER.FIELDS (" item).map fun inner =>
        (.headerFields (splitWhitespace inner) false, true)).or
      ((namesBehind "BODY[HEADER.FIELDS.NOT (" item).map fun inner =>
        (.headerFields (splitWhitespace inner) true, true)) := by
  simp only [wholeNames, List.mem_cons, List.not_mem_nil, or_false, not_or] at other
  obtain ⟨full, header, text, body, peek, bodyHeader, bodyText, bodyMime⟩ := other
  unfold wholeSection
  split
  · exact absurd ‹_› full
  · exact absurd ‹_› header
  · exact absurd ‹_› text
  · exact absurd ‹_› body
  · exact absurd ‹_› peek
  · exact absurd ‹_› bodyHeader
  · exact absurd ‹_› bodyText
  · exact absurd ‹_› bodyMime
  · rfl

theorem splitWhitespace_fieldTexts (names : List FieldName) :
    splitWhitespace (Responses.join (fieldTexts names)).toList = fieldTexts names := by
  refine splitWhitespace_join fun word given => ?_
  obtain ⟨name, -, rfl⟩ := List.mem_map.mp given
  exact name.isWord

theorem wholeSection_body (bodySection : Section) :
    wholeSection ("BODY[".toList ++ (bodySection.chars ++ [']'])) = some (bodySection.read, true) := by
  cases bodySection with
  | full => decide +kernel
  | header => decide +kernel
  | text => decide +kernel
  | mime => decide +kernel
  | fields names negated =>
      let list := (Responses.join (fieldTexts names)).toList
      have paren : ∀ name ∈ wholeNames, '(' ∉ name.toList := by
        unfold wholeNames
        simp only [List.forall_mem_cons]
        decide +kernel
      have other : String.ofList ("BODY[".toList ++ ((Section.fields names negated).chars ++ [']'])) ∉
          wholeNames := by
        intro isName
        refine paren _ isName ?_
        rw [String.toList_ofList]
        cases negated <;> simp [Section.chars, fieldsHead]
      rw [wholeSection_fields other]
      cases negated with
      | false =>
          have shape : "BODY[".toList ++ ((Section.fields names false).chars ++ [']']) =
              "BODY[HEADER.FIELDS (".toList ++ (list ++ [')', ']']) := by
            simp [Section.chars, fieldsHead, list]
          have behind : namesBehind "BODY[HEADER.FIELDS (" ("BODY[HEADER.FIELDS (".toList ++ (list ++ [')', ']'])) =
              some list := by
            rw [namesBehind, stripPrefix_append, Option.bind_some, stripSuffix_append]
          rw [shape, behind, Option.map_some, Option.some_or, splitWhitespace_fieldTexts]
          rfl
      | true =>
          have shape : "BODY[".toList ++ ((Section.fields names true).chars ++ [']']) =
              "BODY[HEADER.FIELDS.NOT (".toList ++ (list ++ [')', ']']) := by
            simp [Section.chars, fieldsHead, list]
          have notPlain : namesBehind "BODY[HEADER.FIELDS (" ("BODY[HEADER.FIELDS.NOT (".toList ++
              (list ++ [')', ']'])) = none := rfl
          have behind : namesBehind "BODY[HEADER.FIELDS.NOT (" ("BODY[HEADER.FIELDS.NOT (".toList ++
              (list ++ [')', ']'])) = some list := by
            rw [namesBehind, stripPrefix_append, Option.bind_some, stripSuffix_append]
          rw [shape, notPlain, behind, Option.map_some, Option.map_none, Option.none_or,
            splitWhitespace_fieldTexts]
          rfl

/-! ## Sections of a part -/

theorem findOffset_cons {p : List Char → Bool} {c : Char} {rest : List Char} (notHere : p (c :: rest) = false) :
    Slice.findOffset p (c :: rest) = (Slice.findOffset p rest).map (c.utf8Size + ·) := by
  rw [Slice.findOffset, if_neg (by rw [notHere]; exact Bool.false_ne_true)]

section
variable {marker : String} {letter : Char} {others : List Char}
  (shape : marker.toList = '.' :: letter :: others) (noDigit : letter.isDigit = false)
include shape

theorem findOffset_digits {digits : List Char} (isDigit : ∀ c ∈ digits, c.isDigit = true) (rest : List Char) :
    Slice.findOffset (startsWith marker) (digits ++ rest) =
      (Slice.findOffset (startsWith marker) rest).map (Slice.byteLength digits + ·) := by
  induction digits with
  | nil =>
      have zero : (fun offset => Slice.byteLength [] + offset) = (id : Nat → Nat) := funext fun n => Nat.zero_add n
      rw [List.nil_append, zero, Option.map_id, id]
  | cons c digits ih =>
      have other : '.' ≠ c := by
        rintro rfl
        exact absurd (isDigit '.' List.mem_cons_self) (by decide)
      have notHere : startsWith marker (c :: (digits ++ rest)) = false := by
        unfold startsWith
        rw [shape, List.isPrefixOf_cons_cons, beq_false_of_ne other, Bool.false_and]
      rw [List.cons_append, findOffset_cons notHere, ih fun c member => isDigit c (List.mem_cons_of_mem _ member),
        Option.map_map]
      refine congrArg (Option.map · _) (funext fun n => ?_)
      rw [Function.comp_apply, Slice.byteLength_cons, Nat.add_assoc]

include noDigit in
theorem findOffset_numberTail (ks : List Nat) (rest : List Char) :
    Slice.findOffset (startsWith marker) ((numberTail ks).toList ++ rest) =
      (Slice.findOffset (startsWith marker) rest).map (Slice.byteLength (numberTail ks).toList + ·) := by
  induction ks with
  | nil =>
      have zero : (fun offset => Slice.byteLength "".toList + offset) = (id : Nat → Nat) :=
        funext fun n => Nat.zero_add n
      rw [numberTail, zero, Option.map_id]
      rfl
  | cons k ks ih =>
      obtain ⟨d, digits, isDigits⟩ := List.exists_cons_of_ne_nil (Commands.toString_ne_nil k)
      have digit : d.isDigit = true := isDigit_of_mem_toString (n := k) (by rw [isDigits]; exact List.mem_cons_self)
      have other : letter ≠ d := by
        rintro rfl
        rw [digit] at noDigit
        cases noDigit
      have notHere : startsWith marker ('.' :: ((toString k).toList ++ ((numberTail ks).toList ++ rest))) = false := by
        unfold startsWith
        rw [shape, isDigits, List.isPrefixOf_cons_cons, List.cons_append, List.isPrefixOf_cons_cons,
          beq_false_of_ne other, Bool.false_and, Bool.and_false]
      rw [numberTail_toList, List.cons_append, List.append_assoc, findOffset_cons notHere,
        findOffset_digits shape fun c member => isDigit_of_mem_toString member, ih, Option.map_map,
        Option.map_map]
      refine congrArg (Option.map · _) (funext fun n => ?_)
      simp only [Function.comp_apply, Slice.byteLength_cons, Slice.byteLength_append]
      omega

include noDigit in
theorem findOffset_numberText (ks : List Nat) (rest : List Char) :
    Slice.findOffset (startsWith marker) ((numberText ks).toList ++ rest) =
      (Slice.findOffset (startsWith marker) rest).map (Slice.byteLength (numberText ks).toList + ·) := by
  cases ks with
  | nil =>
      have zero : (fun offset => Slice.byteLength "".toList + offset) = (id : Nat → Nat) :=
        funext fun n => Nat.zero_add n
      rw [numberText, zero, Option.map_id]
      rfl
  | cons k ks =>
      rw [numberText, String.toList_append, List.append_assoc,
        findOffset_digits shape fun c member => isDigit_of_mem_toString member,
        findOffset_numberTail shape noDigit, Option.map_map]
      refine congrArg (Option.map · _) (funext fun n => ?_)
      rw [Function.comp_apply, Slice.byteLength_append, Nat.add_assoc]

end

def sectionSuffix : Section → List Char
  | .full => []
  | bodySection => '.' :: bodySection.chars

theorem partText_some (part : PartNumber) (bodySection : Section) :
    partText (some part) bodySection = (numberText part.numbers).toList ++ sectionSuffix bodySection := by
  cases bodySection with
  | full => exact (List.append_nil _).symm
  | _ => rfl

theorem findOffset_starts {marker : String} {text rest : List Char} (shape : text = marker.toList ++ rest)
    (nonempty : marker.toList ≠ []) : Slice.findOffset (startsWith marker) text = some 0 := by
  have here : startsWith marker text = true := by
    unfold startsWith
    rw [shape]
    exact List.isPrefixOf_iff_prefix.mpr (List.prefix_append _ _)
  obtain ⟨c, others, isMarker⟩ := List.exists_cons_of_ne_nil nonempty
  rw [isMarker, List.cons_append] at shape
  rw [shape] at here ⊢
  rw [Slice.findOffset, if_pos here]

theorem not_mem_fields (names : List FieldName) :
    Slice.findOffset (startsWith ".HEADER.FIELDS.NOT (") (sectionSuffix (.fields names false)) = none := by
  let list := (Responses.join (fieldTexts names)).toList ++ [')']
  have noParen : '(' ∉ list := by
    intro member
    rcases List.mem_append.mp member with inNames | closing
    · exact absurd (plain_names _ inNames) (by decide)
    · exact absurd (List.mem_singleton.mp closing) (by decide)
  have pattern : ".HEADER.FIELDS.NOT (".toList = '.' :: "HEADER.FIELDS.NOT (".toList := rfl
  have shape : sectionSuffix (.fields names false) = '.' :: ("HEADER".toList ++ '.' :: ("FIELDS (".toList ++ list)) := by
    simp [sectionSuffix, Section.chars, fieldsHead, list]
  have absent : ¬ ".HEADER.FIELDS.NOT (".toList <:+: sectionSuffix (.fields names false) := by
    rw [shape, pattern, List.infix_cons_iff, Occurrences.infix_append_iff (by decide), List.infix_cons_iff,
      Occurrences.infix_append_iff (by decide), not_or, not_or]
    refine ⟨fun starts => ?_, fun starts => ?_, fun inside => ?_⟩
    · rw [← List.isPrefixOf_iff_prefix] at starts
      exact absurd starts Bool.false_ne_true
    · rw [← List.isPrefixOf_iff_prefix] at starts
      exact absurd starts Bool.false_ne_true
    · exact noParen (inside.subset (by decide))
  rw [← Option.not_isSome_iff_eq_none]
  exact fun found => absent ((Slice.findOffset_infix_iff _ _).mp found)

section
variable (part : PartNumber) (bodySection : Section)

theorem findOffset_absent {marker : String} {letter : Char} {others : List Char}
    (shape : marker.toList = '.' :: letter :: others) (noDigit : letter.isDigit = false)
    (absent : Slice.findOffset (startsWith marker) (sectionSuffix bodySection) = none) :
    Slice.findOffset (startsWith marker) (partText (some part) bodySection) = none := by
  rw [partText_some, findOffset_numberText shape noDigit, absent, Option.map_none]

theorem findOffset_found {marker : String} {letter : Char} {others : List Char}
    (shape : marker.toList = '.' :: letter :: others) (noDigit : letter.isDigit = false)
    (found : Slice.findOffset (startsWith marker) (sectionSuffix bodySection) = some 0) :
    Slice.findOffset (startsWith marker) (partText (some part) bodySection) =
      some (Slice.byteLength (numberText part.numbers).toList) := by
  rw [partText_some, findOffset_numberText shape noDigit, found, Option.map_some, Nat.add_zero]

theorem partSection_skip {inner : List Char} {marker : String} {negated : Option Bool}
    {markers : List (String × Option Bool)} (absent : Slice.findOffset (startsWith marker) inner = none) :
    partSection inner ((marker, negated) :: markers) = partSection inner markers := by
  rw [partSection, absent]

theorem partSection_found {suffix : List Char} {marker : String} {negated : Option Bool}
    {markers : List (String × Option Bool)}
    (found : Slice.findOffset (startsWith marker) ((numberText part.numbers).toList ++ '.' :: suffix) =
      some (Slice.byteLength (numberText part.numbers).toList)) :
    partSection ((numberText part.numbers).toList ++ '.' :: suffix) ((marker, negated) :: markers) =
      match negated with
      | some negated =>
          .ok ((fieldNames suffix).map fun names => (numberText part.numbers, .headerFields names negated))
      | none =>
          match String.ofList suffix with
          | "HEADER" => .ok (some (numberText part.numbers, .header))
          | "TEXT" => .ok (some (numberText part.numbers, .text))
          | "MIME" => .ok (some (numberText part.numbers, .mime))
          | _ => partSection ((numberText part.numbers).toList ++ '.' :: suffix) markers := by
  let number := (numberText part.numbers).toList
  have upTo : textUpTo (number ++ '.' :: suffix) (Slice.byteLength number) = .ok number := by
    rw [textUpTo, Slice.takeBytes_append]
    rfl
  have onwards : textFrom (number ++ '.' :: suffix) (Slice.byteLength number + 1) = .ok suffix := by
    have shape : number ++ '.' :: suffix = (number ++ ['.']) ++ suffix := by simp
    have start : Slice.byteLength number + 1 = Slice.byteLength (number ++ ['.']) := by
      rw [Slice.byteLength_append]
      rfl
    rw [textFrom, start, shape, Slice.dropBytes_append]
    rfl
  rw [partSection, found]
  simp only [bind, Except.bind, number] at upTo onwards ⊢
  rw [upTo]
  dsimp only
  rw [onwards, String.ofList_toList]
  cases negated with
  | some negated => rfl
  | none => rfl

theorem fieldNames_chars (names : List FieldName) (negated : Bool) :
    fieldNames (Section.fields names negated).chars = some (fieldTexts names) := by
  let list := (Responses.join (fieldTexts names)).toList
  unfold fieldNames
  cases negated with
  | false =>
      have excluded : stripPrefix "HEADER.FIELDS.NOT (".toList
          ("HEADER.FIELDS (".toList ++ (list ++ [')'])) = none := rfl
      have shape : (Section.fields names false).chars = "HEADER.FIELDS (".toList ++ (list ++ [')']) := rfl
      rw [shape, excluded, stripPrefix_append, Option.none_or, Option.bind_some, stripSuffix_append,
        Option.map_some, splitWhitespace_fieldTexts]
  | true =>
      have shape : (Section.fields names true).chars = "HEADER.FIELDS.NOT (".toList ++ (list ++ [')']) := rfl
      rw [shape, stripPrefix_append, Option.some_or, Option.bind_some, stripSuffix_append, Option.map_some,
        splitWhitespace_fieldTexts]

/-- The loop over the markers finds the section of a part, the longer markers being tried first. -/
theorem partSection_partText : partSection (partText (some part) bodySection) sectionMarkers =
    .ok (some (numberText part.numbers, bodySection.read)) := by
  have skip (marker : String) {letter : Char} {others : List Char} {negated : Option Bool}
      {markers : List (String × Option Bool)} (shape : marker.toList = '.' :: letter :: others)
      (noDigit : letter.isDigit = false)
      (absent : Slice.findOffset (startsWith marker) (sectionSuffix bodySection) = none) :
      partSection (partText (some part) bodySection) ((marker, negated) :: markers) =
        partSection (partText (some part) bodySection) markers :=
    partSection_skip (findOffset_absent part bodySection shape noDigit absent)
  unfold sectionMarkers
  cases bodySection with
  | full =>
      have digits : ((numberText part.numbers).toList.all fun c => c.isDigit || c == '.') = true := by
        rw [List.all_eq_true]
        exact fun c member => by simpa using numberText_chars part.numbers c member
      rw [skip ".HEADER.FIELDS.NOT (" rfl (by decide) rfl, skip ".HEADER.FIELDS (" rfl (by decide) rfl,
        skip ".HEADER" rfl (by decide) rfl, skip ".TEXT" rfl (by decide) rfl, skip ".MIME" rfl (by decide) rfl,
        partSection, partText, digits, if_pos rfl, String.ofList_toList]
      rfl
  | header =>
      rw [skip ".HEADER.FIELDS.NOT (" rfl (by decide) (by decide +kernel),
        skip ".HEADER.FIELDS (" rfl (by decide) (by decide +kernel)]
      exact partSection_found part (findOffset_found part .header rfl (by decide) (by decide +kernel))
  | text =>
      rw [skip ".HEADER.FIELDS.NOT (" rfl (by decide) (by decide +kernel),
        skip ".HEADER.FIELDS (" rfl (by decide) (by decide +kernel),
        skip ".HEADER" rfl (by decide) (by decide +kernel)]
      exact partSection_found part (findOffset_found part .text rfl (by decide) (by decide +kernel))
  | mime =>
      rw [skip ".HEADER.FIELDS.NOT (" rfl (by decide) (by decide +kernel),
        skip ".HEADER.FIELDS (" rfl (by decide) (by decide +kernel),
        skip ".HEADER" rfl (by decide) (by decide +kernel), skip ".TEXT" rfl (by decide) (by decide +kernel)]
      exact partSection_found part (findOffset_found part .mime rfl (by decide) (by decide +kernel))
  | fields names negated =>
      have read := fieldNames_chars names negated
      cases negated with
      | false =>
          have shape : sectionSuffix (.fields names false) = ".HEADER.FIELDS (".toList ++
              ((Responses.join (fieldTexts names)).toList ++ [')']) := rfl
          have found := findOffset_found part (.fields names false) rfl (by decide)
            (findOffset_starts shape (by decide))
          rw [skip ".HEADER.FIELDS.NOT (" rfl (by decide) (not_mem_fields names)]
          refine (partSection_found part found).trans ?_
          rw [read]
          rfl
      | true =>
          have shape : sectionSuffix (.fields names true) = ".HEADER.FIELDS.NOT (".toList ++
              ((Responses.join (fieldTexts names)).toList ++ [')']) := rfl
          have found := findOffset_found part (.fields names true) rfl (by decide)
            (findOffset_starts shape (by decide))
          refine (partSection_found part found).trans ?_
          rw [read]
          rfl

end

end ImapCache.FetchGrammar
