import ImapCache.Proof.UpstreamStatus

/-!
# The literal of an upstream FETCH

The client reads lines until one announces a literal, takes its bytes by their number and goes on with
lines. No byte of the body is read as a line, whatever the body has in it.
-/

namespace ImapCache.UpstreamClient
open Lib Protocol Search UpstreamLines

/-! ## The parts of a response -/

/-- What follows `* ` in a line that announces no literal. -/
structure PlainText extends LineText where
  noLiteral : (trimLineEnd chars).getLast? ≠ some '\x7d'

def PlainText.line (text : PlainText) : List Char := '*' :: ' ' :: text.chars

def plainBytes (lines : List PlainText) : Bytes := lines.flatMap fun text => lineBytes text.line

/-- The bytes of a message. -/
structure Body where
  bytes : Bytes
  fits : bytes.length ≤ Session.maxAllocation

def beforeLiteral (n uid : Nat) : List Char :=
  '*' :: ' ' :: ((toString n).toList ++ " FETCH (UID ".toList ++ (toString uid).toList ++
    " BODY[] ".toList)

def literalLine (n uid size : Nat) : List Char :=
  beforeLiteral n uid ++ '\x7b' :: ((toString size).toList ++ ['\x7d'])

/-- The line that closes the list of items, which may have items in front of the parenthesis. -/
inductive ClosingLine where
  | bare
  | items (text : LineText)

def ClosingLine.line : ClosingLine → List Char
  | bare => [')']
  | items text => ' ' :: (text.chars ++ [')'])

def StatusLine.success (text : LineText) : StatusLine where
  status := ['O', 'K']
  text := text.chars
  noSpace := by decide
  noFeed := by simpa using text.noFeed

/-! ## Lines that announce nothing -/

theorem startsWith_tagText {nextTag : Nat} {c : Char} {line : List Char} (other : c ≠ 'A') :
    startsWith (tagText nextTag) (c :: line) = false := by
  obtain ⟨digits, letter, -⟩ := tagText_toList nextTag
  unfold startsWith
  rw [letter]
  simp [List.isPrefixOf, other.symm]

theorem readBody_passed (nextTag fuel : Nat) (body : Option Bytes) {line : List Char}
    (noFeed : '\n' ∉ line) (noLiteral : announcesLiteral (trimLineEnd line) = false)
    (untagged : startsWith (tagText nextTag) (trimLineEnd line) = false) (rest : Bytes) :
    readBody (tagText nextTag) (fuel + 1) body (lineBytes line ++ rest) =
      readBody (tagText nextTag) fuel body rest := by
  rw [readBody, readTextLine_line noFeed]
  simp only [bind, Except.bind, String.toList_ofList, noLiteral, untagged, Bool.false_eq_true, ↓reduceIte,
    ite_self]

theorem PlainText.noFeed_line (text : PlainText) : '\n' ∉ text.line := by
  simpa [PlainText.line] using text.noFeed

theorem PlainText.trimLineEnd_line (text : PlainText) :
    trimLineEnd text.line = '*' :: ' ' :: trimLineEnd text.chars :=
  trimLineEnd_append_cons ['*'] (by decide) text.chars

theorem PlainText.announcesLiteral_line (text : PlainText) :
    announcesLiteral (trimLineEnd text.line) = false := by
  have last : ((trimLineEnd text.line).getLast? == some '\x7d') = false := by
    have noLiteral := text.noLiteral
    rw [trimLineEnd_line, List.getLast?_cons_cons]
    cases shape : trimLineEnd text.chars with
    | nil => decide
    | cons c chars =>
        rw [shape] at noLiteral
        rw [List.getLast?_cons_cons]
        exact beq_false_of_ne noLiteral
  unfold announcesLiteral
  rw [last, Bool.and_false]

theorem readBody_plain (nextTag fuel : Nat) (body : Option Bytes) (text : PlainText) (rest : Bytes) :
    readBody (tagText nextTag) (fuel + 1) body (lineBytes text.line ++ rest) =
      readBody (tagText nextTag) fuel body rest := by
  refine readBody_passed nextTag fuel body text.noFeed_line text.announcesLiteral_line ?_ rest
  rw [text.trimLineEnd_line]
  exact startsWith_tagText (by decide)

theorem readBody_plains (nextTag fuel : Nat) (body : Option Bytes) (lines : List PlainText)
    (rest : Bytes) :
    readBody (tagText nextTag) (fuel + lines.length) body (plainBytes lines ++ rest) =
      readBody (tagText nextTag) fuel body rest := by
  induction lines with
  | nil => rfl
  | cons text lines ih =>
      have split : plainBytes (text :: lines) ++ rest = lineBytes text.line ++ (plainBytes lines ++ rest) := by
        simp [plainBytes]
      rw [List.length_cons, ← Nat.add_assoc, split, readBody_plain, ih]

theorem readBody_closing (nextTag fuel : Nat) (body : Option Bytes) (closing : ClosingLine)
    (rest : Bytes) :
    readBody (tagText nextTag) (fuel + 1) body (lineBytes closing.line ++ rest) =
      readBody (tagText nextTag) fuel body rest := by
  cases closing with
  | bare =>
      have trimmed : trimLineEnd ClosingLine.bare.line = [')'] := by decide
      refine readBody_passed nextTag fuel body (by decide) ?_ ?_ rest
      · rw [trimmed]
        rfl
      · rw [trimmed]
        exact startsWith_tagText (by decide)
  | items text =>
      have noFeed : '\n' ∉ (ClosingLine.items text).line := by simpa [ClosingLine.line] using text.noFeed
      have trimmed : trimLineEnd (ClosingLine.items text).line = (ClosingLine.items text).line :=
        trimLineEnd_append_cons (' ' :: text.chars) (by decide) []
      refine readBody_passed nextTag fuel body noFeed ?_ ?_ rest
      · rw [trimmed]
        rfl
      · rw [trimmed]
        exact startsWith_tagText (by decide)

/-! ## The literal -/

theorem not_mem_toDigits {c : Char} (noDigit : c.isDigit = false) (n : Nat) : c ∉ Nat.toDigits 10 n := by
  intro member
  have digit := Nat.isDigit_of_mem_toDigits (by decide) (by decide) member
  rw [noDigit] at digit
  cases digit

theorem parseLiteralSize_literalLine (n uid : Nat) {size : Nat} (fits : size ≤ Session.maxAllocation) :
    parseLiteralSize (literalLine n uid size) = .ok size := by
  let digits := (toString size).toList
  have opening : Slice.findOffset (fun rest => rest.head? == some '\x7b' && !rest.tail.contains '\x7b')
      (literalLine n uid size) = some (Slice.byteLength (beforeLiteral n uid)) :=
    Slice.findOffset_last _ (by simpa using not_mem_toDigits (by decide) size)
  have shape : literalLine n uid size = (beforeLiteral n uid ++ '\x7b' :: digits) ++ ['\x7d'] := by
    simp [literalLine, digits]
  have closing : Slice.findOffset (fun rest => rest.head? == some '\x7d' && !rest.tail.contains '\x7d')
      (literalLine n uid size) = some (Slice.byteLength (beforeLiteral n uid ++ '\x7b' :: digits)) := by
    rw [shape]
    exact Slice.findOffset_last _ (by simp)
  have between : textBetween (literalLine n uid size) (Slice.byteLength (beforeLiteral n uid) + 1)
      (Slice.byteLength (beforeLiteral n uid ++ '\x7b' :: digits)) = .ok digits := by
    have start : Slice.byteLength (beforeLiteral n uid) + 1 =
        Slice.byteLength (beforeLiteral n uid ++ ['\x7b']) := by
      rw [Slice.byteLength_append]
      rfl
    have stop : beforeLiteral n uid ++ '\x7b' :: digits = (beforeLiteral n uid ++ ['\x7b']) ++ digits := by
      simp
    rw [textBetween, start, shape, stop, Slice.slice_append]
    rfl
  have size_lt : size < 18446744073709551616 := Nat.lt_of_le_of_lt fits (by decide)
  have number : parseU64 digits = some size := by
    rw [CommandStream.parseU64_toString, if_pos size_lt]
  unfold parseLiteralSize
  simp only [opening, closing, between, orPanics, bind, Except.bind, number]

theorem literalLine_noFeed (n uid size : Nat) : '\n' ∉ literalLine n uid size := by
  have digits := not_mem_toDigits (c := '\n') (by decide)
  simp [literalLine, beforeLiteral, digits]

theorem trimLineEnd_literalLine (n uid size : Nat) :
    trimLineEnd (literalLine n uid size) = literalLine n uid size := by
  have shape : literalLine n uid size = (beforeLiteral n uid ++ '\x7b' :: (toString size).toList) ++ ['\x7d'] := by
    simp [literalLine]
  rw [shape, trimLineEnd_append_cons _ (by decide)]
  rfl

theorem announcesLiteral_literalLine (n uid size : Nat) :
    announcesLiteral (literalLine n uid size) = true := by
  have starts : startsWith "* " (literalLine n uid size) = true := rfl
  have fetch : containsText (literalLine n uid size) "FETCH".toList = true := by
    unfold containsText
    rw [Slice.findOffset_infix_iff]
    refine ⟨'*' :: ' ' :: ((toString n).toList ++ [' ']), " (UID ".toList ++ (toString uid).toList ++
      " BODY[] ".toList ++ '\x7b' :: ((toString size).toList ++ ['\x7d']), ?_⟩
    simp [literalLine, beforeLiteral]
  have brace : (literalLine n uid size).contains '\x7b' = true := by simp [literalLine]
  have last : (literalLine n uid size).getLast? = some '\x7d' := by
    have shape : literalLine n uid size = (beforeLiteral n uid ++ '\x7b' :: (toString size).toList) ++ ['\x7d'] := by
      simp [literalLine]
    rw [shape, List.getLast?_concat]
  unfold announcesLiteral
  rw [starts, fetch, brace, last]
  rfl

theorem readExact_append (body : Body) (rest : Bytes) :
    readExact body.bytes.length (body.bytes ++ rest) = .ok (body.bytes, rest) := by
  have enough : ¬ (body.bytes ++ rest).length < body.bytes.length := by simp
  rw [readExact, if_neg (Nat.not_lt.mpr body.fits), if_neg enough, List.take_left, List.drop_left]

theorem readBody_literal (nextTag fuel n uid : Nat) (before : Option Bytes) (body : Body) (rest : Bytes) :
    readBody (tagText nextTag) (fuel + 1) before
        (lineBytes (literalLine n uid body.bytes.length) ++ (body.bytes ++ rest)) =
      readBody (tagText nextTag) fuel (some body.bytes) rest := by
  have nonempty : (String.ofList (literalLine n uid body.bytes.length)).isEmpty = false := by
    simp [literalLine, beforeLiteral]
  have noParen : (String.ofList (literalLine n uid body.bytes.length) == ")") = false := by
    rw [beq_eq_false_iff_ne]
    intro same
    have chars := congrArg String.toList same
    rw [String.toList_ofList] at chars
    cases chars
  rw [readBody, readTextLine_line (literalLine_noFeed n uid _), trimLineEnd_literalLine]
  simp only [bind, Except.bind, nonempty, noParen, String.toList_ofList, announcesLiteral_literalLine,
    parseLiteralSize_literalLine n uid body.fits, readExact_append, Bool.or_self, Bool.false_eq_true,
    ↓reduceIte]

/-! ## The response -/

theorem ensureOk_success (nextTag : Nat) (text : LineText) :
    ensureOk (String.ofList (trimLineEnd ((StatusLine.success text).chars nextTag))) = .ok () := by
  have ok : containsText (trimLineEnd ((StatusLine.success text).chars nextTag)) " OK ".toList = true :=
    ((StatusLine.success text).contains_ok_iff nextTag).mpr (.inl rfl)
  rw [ensureOk, String.toList_ofList, if_pos ok]

theorem readBody_success (nextTag fuel : Nat) (body : Bytes) (text : LineText) (rest : Bytes) :
    readBody (tagText nextTag) (fuel + 1) (some body)
        (lineBytes ((StatusLine.success text).chars nextTag) ++ rest) = .ok (body, rest) := by
  let status := StatusLine.success text
  obtain ⟨digits, letter, -⟩ := tagText_toList nextTag
  have shape := status.trimLineEnd_chars nextTag
  have nonempty : (String.ofList (trimLineEnd (status.chars nextTag))).isEmpty = false := by
    rw [shape, letter]
    simp
  have noParen : (String.ofList (trimLineEnd (status.chars nextTag)) == ")") = false := by
    rw [beq_eq_false_iff_ne]
    intro same
    have chars := congrArg String.toList same
    rw [String.toList_ofList, shape, letter] at chars
    cases chars
  have noLiteral : announcesLiteral (trimLineEnd (status.chars nextTag)) = false := by
    rw [shape, letter]
    rfl
  have tagged : startsWith (tagText nextTag) (trimLineEnd (status.chars nextTag)) = true := by
    unfold startsWith
    rw [shape, List.isPrefixOf_iff_prefix]
    exact List.prefix_append _ _
  rw [readBody, readTextLine_line (status.chars_noFeed nextTag)]
  simp only [bind, Except.bind, String.toList_ofList, nonempty, noParen, noLiteral, tagged, status,
    ensureOk_success, Bool.or_self, Bool.false_eq_true, ↓reduceIte]

def fetchBytes (nextTag n uid : Nat) (before after : List PlainText) (body : Body) (closing : ClosingLine)
    (text : LineText) (rest : Bytes) : Bytes :=
  plainBytes before ++ (lineBytes (literalLine n uid body.bytes.length) ++ (body.bytes ++
    (lineBytes closing.line ++ (plainBytes after ++
      (lineBytes ((StatusLine.success text).chars nextTag) ++ rest)))))

theorem length_le_plainBytes (lines : List PlainText) : lines.length ≤ (plainBytes lines).length := by
  induction lines with
  | nil => exact Nat.le_refl _
  | cons text lines ih =>
      have positive := List.length_pos_of_ne_nil (lineBytes_ne_nil text.line)
      rw [plainBytes, List.flatMap_cons, List.length_append, List.length_cons]
      rw [plainBytes] at ih
      omega

theorem readBody_fetchBytes (nextTag fuel n uid : Nat) (before after : List PlainText) (body : Body)
    (closing : ClosingLine) (text : LineText) (rest : Bytes) :
    readBody (tagText nextTag) (fuel + 1 + after.length + 1 + 1 + before.length) none
        (fetchBytes nextTag n uid before after body closing text rest) = .ok (body.bytes, rest) := by
  unfold fetchBytes
  rw [readBody_plains, readBody_literal, readBody_closing, readBody_plains, readBody_success]

theorem uid_fetch_rfc822_body (client : Client) (n uid : Nat) (before after : List PlainText) (body : Body)
    (closing : ClosingLine) (text : LineText) (rest : Bytes) :
    uidFetchRfc822
        (client.receiving (fetchBytes client.nextTag n uid before after body closing text rest)) uid =
      .ok (body.bytes, (client.write
        (tagText client.nextTag ++ " UID FETCH " ++ toString uid ++ " (UID BODY.PEEK[])\r\n")).receiving
          rest) := by
  let incoming := fetchBytes client.nextTag n uid before after body closing text rest
  have enough : before.length + after.length + 3 ≤ incoming.length := by
    have first := length_le_plainBytes before
    have last := length_le_plainBytes after
    have literal := List.length_pos_of_ne_nil (lineBytes_ne_nil (literalLine n uid body.bytes.length))
    have close := List.length_pos_of_ne_nil (lineBytes_ne_nil closing.line)
    have status := List.length_pos_of_ne_nil
      (lineBytes_ne_nil ((StatusLine.success text).chars client.nextTag))
    simp only [incoming, fetchBytes, List.length_append]
    omega
  have read : readBody (tagText client.nextTag) (incoming.length + 1) none incoming =
      .ok (body.bytes, rest) := by
    have rounds : incoming.length + 1 =
        (incoming.length - (before.length + after.length + 2)) + 1 + after.length + 1 + 1 + before.length := by
      omega
    rw [rounds]
    exact readBody_fetchBytes ..
  unfold uidFetchRfc822
  change Except.bind (readBody (tagText client.nextTag) (incoming.length + 1) none incoming) _ = _
  rw [read]
  rfl

end ImapCache.UpstreamClient
