import Mathlib
import ImapCache.Proof.ItemScanning
import ImapCache.Proof.NumberSets
import ImapCache.Proof.PartNumbers
import ImapCache.Proof.QuotedCommands

/-!
# The grammar of FETCH items

A list of items that is printed in a FETCH line is split into the same items, in upper case, and each is
read back as the section, the part number, the names and the range that it was printed from.
-/

namespace ImapCache.FetchGrammar
open Lib Protocol CommandStream
open Commands (isDigit_of_mem_toString)
open PartNumbers (numberText numberTail)
open UpstreamClient (BareWord)

/-! ## Letter case -/

theorem toUpper_eq_iff {c d : Char} (noLetter : d.isAlpha = false) : c.toUpper = d ↔ c = d := by
  by_cases lower : c.isLower = true
  · constructor
    · rintro rfl
      have letter : c.isAlpha = true := by simp [Char.isAlpha, lower]
      rw [Char.isAlpha_toUpper_eq_isAlpha, letter] at noLetter
      cases noLetter
    · rintro rfl
      have letter : c.isAlpha = true := by simp [Char.isAlpha, lower]
      rw [letter] at noLetter
      cases noLetter
  · rw [Char.toUpper_eq_of_not_isLower lower]

theorem isWhitespace_toUpper (c : Char) : isWhitespace c.toUpper = isWhitespace c := by
  by_cases lower : c.isLower = true
  · have bounds : 97 ≤ c.val ∧ c.val ≤ 122 := by simpa [Char.isLower] using lower
    have low : 97 ≤ c.toNat := bounds.1
    have high : c.toNat ≤ 122 := bounds.2
    have upper : c.toUpper.isUpper = true := by
      rw [Char.isUpper_toUpper_eq_isAlpha]
      simp [Char.isAlpha, lower]
    have bounds' : 65 ≤ c.toUpper.val ∧ c.toUpper.val ≤ 90 := by simpa [Char.isUpper] using upper
    have low' : 65 ≤ c.toUpper.toNat := bounds'.1
    have high' : c.toUpper.toNat ≤ 90 := bounds'.2
    rw [isWhitespace_of_printable (by omega) (by omega), isWhitespace_of_printable (by omega) (by omega)]
  · rw [Char.toUpper_eq_of_not_isLower lower]

theorem depthStep_toUpper (depth : Nat × Nat) (c : Char) : depthStep depth c.toUpper = depthStep depth c := by
  unfold depthStep depthAfter
  simp only [isWhitespace_toUpper, toUpper_eq_iff (d := '(') (by decide), toUpper_eq_iff (d := ')') (by decide),
    toUpper_eq_iff (d := '[') (by decide), toUpper_eq_iff (d := ']') (by decide)]

theorem depths_toUpper (depth : Nat × Nat) (text : List Char) :
    depths depth (text.map Char.toUpper) = depths depth text := by
  unfold depths
  rw [List.foldlM_map]
  simp only [depthStep_toUpper]

theorem balanced_of_spelled {text other : List Char} (balanced : Balanced other)
    (same : text.map Char.toUpper = other.map Char.toUpper) : Balanced text where
  nonempty := by
    rintro rfl
    exact balanced.nonempty (by simpa using same.symm)
  unquoted member := by
    have upper := List.mem_map_of_mem (f := Char.toUpper) member
    rw [same] at upper
    obtain ⟨c, inOther, isQuote⟩ := List.mem_map.mp upper
    have quote : c = '"' := (toUpper_eq_iff (by decide)).mp (isQuote.trans (by decide))
    exact balanced.unquoted (quote ▸ inOther)
  level depth := by rw [← depths_toUpper, same, depths_toUpper, balanced.level]

/-! ## Items -/

/-- The name of a header field. -/
structure FieldName where
  text : String
  isWord : IsWord text
  plain : ∀ c ∈ text.toList, c ∉ ['"', '(', ')', '[', ']']

inductive Section where
  | full
  | header
  | text
  | mime
  | fields (names : List FieldName) (negated : Bool)

structure PartNumber where
  numbers : List Nat
  nonempty : numbers ≠ []

/-- A range of bytes, whose numbers are of the type `usize`. -/
structure Range where
  offset : Nat
  count : Option Nat
  fits : offset < 18446744073709551616 ∧ ∀ c ∈ count, c < 18446744073709551616

/-- An atom such as FLAGS that names no section of the message. -/
structure MetadataName where
  text : List Char
  nonempty : text ≠ []
  chars : ∀ c ∈ text, isWhitespace c = false ∧ c ∉ ['"', '(', ')', '[', ']', '>']
  other : String.ofList (text.map Char.toUpper) ∉ ["RFC822", "RFC822.HEADER", "RFC822.TEXT"]

/-- The sections of a message with a name of their own. -/
inductive MessageSection where
  | full
  | header
  | text

inductive Item where
  | metadata (name : MetadataName)
  | rfc822 (bodySection : MessageSection) (range : Option Range)
  | body (peek : Bool) (part : Option PartNumber) (bodySection : Section) (range : Option Range)

def fieldTexts (names : List FieldName) : List String := names.map (·.text)

def MessageSection.name : MessageSection → String
  | .full => "RFC822"
  | .header => "RFC822.HEADER"
  | .text => "RFC822.TEXT"

def fieldsHead (negated : Bool) : List Char :=
  (if negated then "HEADER.FIELDS.NOT (" else "HEADER.FIELDS (").toList

def Section.chars : Section → List Char
  | .full => []
  | .header => "HEADER".toList
  | .text => "TEXT".toList
  | .mime => "MIME".toList
  | .fields names negated => fieldsHead negated ++ ((Responses.join (fieldTexts names)).toList ++ [')'])

def partText : Option PartNumber → Section → List Char
  | none, bodySection => bodySection.chars
  | some part, .full => (numberText part.numbers).toList
  | some part, bodySection => (numberText part.numbers).toList ++ '.' :: bodySection.chars

def Range.marker (range : Range) : List Char :=
  (toString range.offset).toList ++ match range.count with
    | none => []
    | some count => '.' :: (toString count).toList

def rangeText : Option Range → List Char
  | none => []
  | some range => '<' :: (range.marker ++ ['>'])

def bodyHead (peek : Bool) : List Char := (if peek then "BODY.PEEK[" else "BODY[").toList

def Item.chars : Item → List Char
  | .metadata name => name.text
  | .rfc822 bodySection range => bodySection.name.toList ++ rangeText range
  | .body peek part bodySection range =>
      bodyHead peek ++ (partText part bodySection ++ ']' :: rangeText range)

/-! ## Requests -/

def MessageSection.request : MessageSection → FetchBodySection
  | .full => .full
  | .header => .header
  | .text => .text

/-- A section as it is read, with the names as they are printed. -/
def Section.read : Section → FetchBodySection
  | .full => .full
  | .header => .header
  | .text => .text
  | .mime => .mime
  | .fields names negated => .headerFields (fieldTexts names) negated

/-- The section of an item that is split off in upper case. -/
def Section.request : Section → FetchBodySection
  | .fields names negated => .headerFields ((fieldTexts names).map toAsciiUppercase) negated
  | bodySection => bodySection.read

def Item.label (item : Item) : String := String.ofList (item.chars.map Char.toUpper)

def Range.request (range : Range) : Nat × Option Nat := (range.offset, range.count)

/-- What an item asks for; a metadata item asks for no section. -/
def Item.request (item : Item) : Option RawFetchRequest :=
  match item with
  | .metadata _ => none
  | .rfc822 bodySection range =>
      some ⟨item.label, .whole bodySection.request, range.map Range.request, false⟩
  | .body peek none bodySection range =>
      some ⟨item.label, .whole bodySection.request, range.map Range.request, peek⟩
  | .body peek (some part) bodySection range =>
      some ⟨item.label, .part (numberText part.numbers) bodySection.request, range.map Range.request, peek⟩

/-! ## The characters of an item -/

def isPlain (c : Char) : Bool := !(['"', '(', ')', '[', ']'].contains c)

theorem depthStep_plain {depth : Nat × Nat} {c : Char} (plain : isPlain c = true)
    (inside : isWhitespace c = false ∨ 0 < depth.2) : depthStep depth c = some depth := by
  simp only [isPlain, List.contains_eq_mem, List.mem_cons, List.not_mem_nil, or_false, Bool.not_eq_true',
    decide_eq_false_iff_not, not_or] at plain
  obtain ⟨-, noOpen, noClose, noBracket, noEnd⟩ := plain
  have stays : (isWhitespace c && depth.1 == 0 && depth.2 == 0) = false := by
    rcases inside with visible | deep
    · rw [visible]
      rfl
    · have notZero : (depth.2 == 0) = false := by
        rw [beq_eq_false_iff_ne]
        omega
      rw [notZero, Bool.and_false]
  unfold depthStep depthAfter
  rw [if_neg (by rw [stays]; exact Bool.false_ne_true), if_neg noOpen, if_neg noClose, if_neg noBracket,
    if_neg noEnd]

theorem depths_plain {depth : Nat × Nat} {text : List Char} (plain : ∀ c ∈ text, isPlain c = true)
    (inside : (∀ c ∈ text, isWhitespace c = false) ∨ 0 < depth.2) : depths depth text = some depth := by
  induction text with
  | nil => rfl
  | cons c text ih =>
      rw [depths_cons_eq_some]
      refine ⟨depth, depthStep_plain (plain c List.mem_cons_self) ?_,
        ih (fun c member => plain c (List.mem_cons_of_mem _ member)) ?_⟩
      · exact inside.imp (fun visible => visible c List.mem_cons_self) id
      · exact inside.imp (fun visible c member => visible c (List.mem_cons_of_mem _ member)) id

/-- A text of visible characters without quotes, parentheses and brackets. -/
def Plain (text : List Char) : Prop := ∀ c ∈ text, isPlain c = true ∧ isWhitespace c = false

theorem Plain.depths {text : List Char} (plain : Plain text) (depth : Nat × Nat) :
    depths depth text = some depth :=
  depths_plain (fun c member => (plain c member).1) (.inl fun c member => (plain c member).2)

theorem Plain.append {a b : List Char} (first : Plain a) (second : Plain b) : Plain (a ++ b) := by
  intro c member
  rcases List.mem_append.mp member with inA | inB
  · exact first c inA
  · exact second c inB

theorem plain_of_alphanum {c : Char} (char : c.isAlphanum = true ∨ c = '.') :
    isPlain c = true ∧ isWhitespace c = false := by
  rcases char with letter | rfl
  · have other (d : Char) (special : d.isAlphanum = false) : c ≠ d := by
      rintro rfl
      rw [letter] at special
      cases special
    have visible : isWhitespace c = false := by
      have bounds : (65 ≤ c.val ∧ c.val ≤ 90 ∨ 97 ≤ c.val ∧ c.val ≤ 122) ∨ 48 ≤ c.val ∧ c.val ≤ 57 := by
        simpa [Char.isAlphanum, Char.isAlpha, Char.isUpper, Char.isLower, Char.isDigit] using letter
      have low : 48 ≤ c.toNat := by
        rcases bounds with (⟨low, -⟩ | ⟨low, -⟩) | ⟨low, -⟩
        · exact Nat.le_trans (by decide) (show 65 ≤ c.toNat from low)
        · exact Nat.le_trans (by decide) (show 97 ≤ c.toNat from low)
        · exact low
      have high : c.toNat ≤ 122 := by
        rcases bounds with (⟨-, high⟩ | ⟨-, high⟩) | ⟨-, high⟩
        · exact Nat.le_trans (show c.toNat ≤ 90 from high) (by decide)
        · exact high
        · exact Nat.le_trans (show c.toNat ≤ 57 from high) (by decide)
      exact isWhitespace_of_printable (by omega) (by omega)
    refine ⟨?_, visible⟩
    simp [isPlain, other '"' (by decide), other '(' (by decide), other ')' (by decide),
      other '[' (by decide), other ']' (by decide)]
  · decide

theorem plain_of_all {text : List Char} (all : text.all (fun c => isPlain c && !isWhitespace c) = true) :
    Plain text := by
  intro c member
  have char := List.all_eq_true.mp all c member
  rw [Bool.and_eq_true, Bool.not_eq_true'] at char
  exact char

theorem plain_toString (n : Nat) : Plain (toString n).toList := fun _ member =>
  plain_of_alphanum (.inl (by simp [Char.isAlphanum, isDigit_of_mem_toString member]))

theorem numberTail_toList (k : Nat) (ks : List Nat) :
    (numberTail (k :: ks)).toList = '.' :: ((toString k).toList ++ (numberTail ks).toList) := by
  rw [numberTail, String.toList_append, String.toList_append]
  rfl

theorem numberText_chars (ks : List Nat) : ∀ c ∈ (numberText ks).toList, c.isDigit = true ∨ c = '.' := by
  have tail : ∀ ks : List Nat, ∀ c ∈ (numberTail ks).toList, c.isDigit = true ∨ c = '.' := by
    intro ks
    induction ks with
    | nil => exact fun c member => absurd member List.not_mem_nil
    | cons k ks ih =>
        intro c member
        rw [numberTail_toList] at member
        rcases List.mem_cons.mp member with dot | others
        · exact .inr dot
        · rcases List.mem_append.mp others with digit | rest
          · exact .inl (isDigit_of_mem_toString digit)
          · exact ih c rest
  cases ks with
  | nil => exact fun c member => absurd member List.not_mem_nil
  | cons k ks =>
      intro c member
      rw [numberText, String.toList_append] at member
      rcases List.mem_append.mp member with digit | rest
      · exact .inl (isDigit_of_mem_toString digit)
      · exact tail ks c rest

theorem plain_numberText (ks : List Nat) : Plain (numberText ks).toList := by
  intro c member
  refine plain_of_alphanum ((numberText_chars ks c member).imp (fun digit => ?_) id)
  simp [Char.isAlphanum, digit]

theorem plain_marker (range : Range) : Plain range.marker := by
  unfold Range.marker
  cases range.count with
  | none => exact (plain_toString _).append fun c member => absurd member List.not_mem_nil
  | some count =>
      have dot : Plain ['.'] := plain_of_all (by decide)
      exact (plain_toString _).append (dot.append (plain_toString count))

theorem plain_rangeText (range : Option Range) : Plain (rangeText range) := by
  cases range with
  | none => exact fun c member => absurd member List.not_mem_nil
  | some range =>
      have opening : Plain ['<'] := plain_of_all (by decide)
      have closing : Plain ['>'] := plain_of_all (by decide)
      exact opening.append ((plain_marker range).append closing)

theorem plain_names {names : List FieldName} :
    ∀ c ∈ (Responses.join (fieldTexts names)).toList, isPlain c = true := by
  intro c member
  rcases mem_join member with rfl | ⟨word, given, inside⟩
  · decide
  · obtain ⟨name, -, rfl⟩ := List.mem_map.mp given
    simpa [isPlain] using name.plain c inside

theorem depths_sectionChars (parens brackets : Nat) (bodySection : Section) :
    depths (parens, brackets + 1) bodySection.chars = some (parens, brackets + 1) := by
  cases bodySection with
  | full => rfl
  | header => exact depths_plain (List.all_eq_true.mp (by decide)) (.inr (Nat.succ_pos brackets))
  | text => exact depths_plain (List.all_eq_true.mp (by decide)) (.inr (Nat.succ_pos brackets))
  | mime => exact depths_plain (List.all_eq_true.mp (by decide)) (.inr (Nat.succ_pos brackets))
  | fields names negated =>
      have opened : depths (parens, brackets + 1) (fieldsHead negated) = some (parens + 1, brackets + 1) := by
        obtain ⟨word, shape, plain⟩ : ∃ word, fieldsHead negated = word ++ ['('] ∧
            ∀ c ∈ word, isPlain c = true := by
          cases negated with
          | false => exact ⟨"HEADER.FIELDS ".toList, by decide, List.all_eq_true.mp (by decide)⟩
          | true => exact ⟨"HEADER.FIELDS.NOT ".toList, by decide, List.all_eq_true.mp (by decide)⟩
        rw [shape, depths_append, depths_plain plain (.inr (Nat.succ_pos brackets))]
        rfl
      have named : depths (parens + 1, brackets + 1) (Responses.join (fieldTexts names)).toList =
          some (parens + 1, brackets + 1) := depths_plain plain_names (.inr (Nat.succ_pos brackets))
      have closed : depths (parens + 1, brackets + 1) ((Responses.join (fieldTexts names)).toList ++ [')']) =
          some (parens, brackets + 1) := by
        rw [depths_append, named]
        rfl
      change depths (parens, brackets + 1)
        (fieldsHead negated ++ ((Responses.join (fieldTexts names)).toList ++ [')'])) = _
      rw [depths_append, opened]
      exact closed

theorem partText_eq (part : Option PartNumber) (bodySection : Section) :
    ∃ before, Plain before ∧ partText part bodySection = before ++ bodySection.chars := by
  have dot : Plain ['.'] := plain_of_all (by decide)
  cases part with
  | none => exact ⟨[], fun c member => absurd member List.not_mem_nil, rfl⟩
  | some part =>
      have number := plain_numberText part.numbers
      cases bodySection with
      | full => exact ⟨_, number, (List.append_nil _).symm⟩
      | header => exact ⟨_, number.append dot, by simp [partText]⟩
      | text => exact ⟨_, number.append dot, by simp [partText]⟩
      | mime => exact ⟨_, number.append dot, by simp [partText]⟩
      | fields names negated => exact ⟨_, number.append dot, by simp [partText]⟩

theorem unquoted_sectionChars (bodySection : Section) : '"' ∉ bodySection.chars := by
  cases bodySection with
  | full => exact List.not_mem_nil
  | header => decide
  | text => decide
  | mime => decide
  | fields names negated =>
      have head : '"' ∉ fieldsHead negated := by cases negated <;> decide
      have names : '"' ∉ (Responses.join (fieldTexts names)).toList := fun member =>
        absurd (plain_names _ member) (by decide)
      intro member
      rcases List.mem_append.mp member with inHead | others
      · exact head inHead
      · rcases List.mem_append.mp others with inNames | closing
        · exact names inNames
        · exact absurd (List.mem_singleton.mp closing) (by decide)

theorem Plain.unquoted {text : List Char} (plain : Plain text) : '"' ∉ text := fun member =>
  absurd (plain _ member).1 (by decide)

theorem Plain.balanced {text : List Char} (plain : Plain text) (nonempty : text ≠ []) : Balanced text :=
  ⟨nonempty, plain.unquoted, plain.depths⟩

theorem balanced_body (peek : Bool) (part : Option PartNumber) (bodySection : Section) (range : Option Range) :
    Balanced (Item.body peek part bodySection range).chars where
  nonempty := by cases peek <;> simp [Item.chars, bodyHead]
  unquoted := by
    obtain ⟨before, plain, shape⟩ := partText_eq part bodySection
    have head : '"' ∉ bodyHead peek := by cases peek <;> decide
    intro member
    rcases List.mem_append.mp member with inHead | others
    · exact head inHead
    · rw [shape] at others
      rcases List.mem_append.mp others with inPart | last
      · rcases List.mem_append.mp inPart with inNumber | inSection
        · exact plain.unquoted inNumber
        · exact unquoted_sectionChars bodySection inSection
      · rcases List.mem_cons.mp last with closing | inRange
        · exact absurd closing (by decide)
        · exact (plain_rangeText range).unquoted inRange
  level depth := by
    obtain ⟨before, plain, shape⟩ := partText_eq part bodySection
    have opened : depths depth (bodyHead peek) = some (depth.1, depth.2 + 1) := by
      cases peek <;> rfl
    have closed : depths (depth.1, depth.2 + 1) (']' :: rangeText range) = some depth := by
      rw [depths_cons_eq_some]
      exact ⟨depth, rfl, (plain_rangeText range).depths depth⟩
    rw [Item.chars, depths_append, opened, Option.bind_some, depths_append, shape, depths_append,
      plain.depths, Option.bind_some, depths_sectionChars, Option.bind_some, closed]

theorem MetadataName.plain (name : MetadataName) : Plain name.text := by
  intro c member
  obtain ⟨visible, plain⟩ := name.chars c member
  simp only [List.mem_cons, List.not_mem_nil, or_false, not_or] at plain
  exact ⟨by simp [isPlain, plain], visible⟩

theorem plain_rfc822 (bodySection : MessageSection) (range : Option Range) :
    Plain (Item.rfc822 bodySection range).chars := by
  have name : Plain bodySection.name.toList := by
    cases bodySection <;> exact plain_of_all (by decide)
  exact name.append (plain_rangeText range)

theorem Item.balanced (item : Item) : Balanced item.chars := by
  cases item with
  | metadata name => exact name.plain.balanced name.nonempty
  | rfc822 bodySection range =>
      refine (plain_rfc822 bodySection range).balanced ?_
      cases bodySection <;> exact List.cons_ne_nil _ _
  | body peek part bodySection range => exact balanced_body peek part bodySection range

end ImapCache.FetchGrammar
