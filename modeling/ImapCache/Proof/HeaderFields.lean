import ImapCache.Proof.BodySections
import ImapCache.Proof.WhiteSpace

/-!
# The fields of a header

A header is cut at every line break that no blank follows. The line break at its end is looked at
twice, so its last field is found once without and once with the line break.
-/

namespace ImapCache.HeaderFields
open Lib RawFetch Search Commands Mutations

/-! ## Fields -/

/-- A header field: its name, the rest of its first line, and the lines that it is folded into. -/
structure Field where
  name : Bytes
  value : Bytes
  folded : List (UInt8 × Bytes)
  named : name ≠ []
  printable : ∀ byte ∈ name, 33 ≤ byte.toNat ∧ byte.toNat ≤ 126 ∧ byte ≠ 58
  oneLine : ¬ crlf <:+: value
  continued : ∀ line ∈ folded, (line.1 = 32 ∨ line.1 = 9) ∧ ¬ crlf <:+: line.2

namespace Field
variable (field : Field)

def firstLine : Bytes := field.name ++ 58 :: field.value

def text : Bytes := field.firstLine ++ field.folded.flatMap fun line => crlf ++ line.1 :: line.2

def bytes : Bytes := field.text ++ crlf

def label : String := String.ofList (field.name.map fun byte => Char.ofNat byte.toNat)

end Field

def message (fields : List Field) (body : Bytes) : Bytes := fields.flatMap Field.bytes ++ crlf ++ body

/-! ## Lines -/

theorem unbroken_cons {byte next : UInt8} {text : Bytes} (unbroken : ¬ crlf <:+: byte :: next :: text) :
    ¬ (byte = 13 ∧ next = 10) := by
  rintro ⟨rfl, rfl⟩
  exact unbroken ⟨[], text, rfl⟩

theorem unbroken_tail {byte : UInt8} {text : Bytes} (unbroken : ¬ crlf <:+: byte :: text) :
    ¬ crlf <:+: text := fun infixed => unbroken (infixed.trans (List.suffix_cons ..).isInfix)

theorem unbroken_of_tail {byte : UInt8} {text : Bytes} (other : byte ≠ 13)
    (unbroken : ¬ crlf <:+: text) : ¬ crlf <:+: byte :: text := by
  intro infixed
  rcases List.infix_cons_iff.mp infixed with starts | infixed
  · obtain ⟨rest, eq⟩ := starts
    cases eq
    exact other rfl
  · exact unbroken infixed

theorem unbroken_append {name value : Bytes} (plain : ∀ byte ∈ name, byte ≠ 13)
    (unbroken : ¬ crlf <:+: value) : ¬ crlf <:+: name ++ value := by
  induction name with
  | nil => exact unbroken
  | cons byte name ih =>
      refine unbroken_of_tail (plain byte (by simp)) (ih fun other member => ?_)
      exact plain other (List.mem_cons_of_mem _ member)

theorem headerBlocksFrom_skip {byte next : UInt8} (apart : ¬ (byte = 13 ∧ next = 10))
    (current rest : Bytes) :
    headerBlocksFrom current (byte :: next :: rest) =
      headerBlocksFrom (current ++ [byte]) (next :: rest) := by
  cases rest with
  | nil => simp only [headerBlocksFrom, if_neg apart]
  | cons => rw [headerBlocksFrom, if_neg apart]

theorem headerBlocksFrom_text {text : Bytes} (unbroken : ¬ crlf <:+: text) (current rest : Bytes) :
    headerBlocksFrom current (text ++ (crlf ++ rest)) =
      headerBlocksFrom (current ++ text) (crlf ++ rest) := by
  induction text generalizing current with
  | nil => simp
  | cons byte text ih =>
      have step : headerBlocksFrom current (byte :: (text ++ (crlf ++ rest))) =
          headerBlocksFrom (current ++ [byte]) (text ++ (crlf ++ rest)) := by
        cases text with
        | nil => exact headerBlocksFrom_skip (by simp) current _
        | cons next text => exact headerBlocksFrom_skip (unbroken_cons unbroken) current _
      rw [List.cons_append, step, ih (unbroken_tail unbroken)]
      simp

theorem headerEnd_text {text : Bytes} (unbroken : ¬ crlf <:+: text) (rest : Bytes) :
    headerEnd (text ++ (crlf ++ rest)) = (headerEnd (crlf ++ rest)).map (text.length + ·) := by
  induction text with
  | nil => simp
  | cons byte text ih =>
      have step : headerEnd (byte :: (text ++ (crlf ++ rest))) =
          (headerEnd (text ++ (crlf ++ rest))).map (· + 1) := by
        rw [headerEnd, if_neg]
        cases text with
        | nil => simp [crlf, List.isPrefixOf]
        | cons next text =>
            have apart := unbroken_cons unbroken
            simp only [List.cons_append, List.isPrefixOf, Bool.and_eq_true, beq_iff_eq]
            rintro ⟨rfl, rfl, -⟩
            exact apart ⟨rfl, rfl⟩
      rw [List.cons_append, step, ih (unbroken_tail unbroken), Option.map_map]
      congr 1
      funext index
      simp only [Function.comp, List.length_cons]
      omega

theorem headerEnd_crlf {first : UInt8} (other : first ≠ 13) (rest : Bytes) :
    headerEnd (crlf ++ first :: rest) = (headerEnd (first :: rest)).map (2 + ·) := by
  have step : headerEnd (crlf ++ first :: rest) =
      ((headerEnd (first :: rest)).map (· + 1)).map (· + 1) := by
    simp only [crlf, List.cons_append, List.nil_append]
    rw [headerEnd, if_neg (by simp [List.isPrefixOf, other.symm]), headerEnd,
      if_neg (by simp [List.isPrefixOf])]
  rw [step, Option.map_map]
  congr 1
  funext index
  simp only [Function.comp]
  omega

/-! ## Folding -/

def foldedText (lines : List (UInt8 × Bytes)) : Bytes := lines.flatMap fun line => crlf ++ line.1 :: line.2

def Folded (lines : List (UInt8 × Bytes)) : Prop :=
  ∀ line ∈ lines, (line.1 = 32 ∨ line.1 = 9) ∧ ¬ crlf <:+: line.2

theorem foldedText_cons (line : UInt8 × Bytes) (lines : List (UInt8 × Bytes)) (rest : Bytes) :
    foldedText (line :: lines) ++ (crlf ++ rest) =
      crlf ++ line.1 :: (line.2 ++ (foldedText lines ++ (crlf ++ rest))) := by
  simp [foldedText]

theorem foldedText_starts (lines : List (UInt8 × Bytes)) (rest : Bytes) :
    ∃ more, foldedText lines ++ (crlf ++ rest) = crlf ++ more := by
  cases lines with
  | nil => exact ⟨rest, rfl⟩
  | cons line lines => exact ⟨_, foldedText_cons line lines rest⟩

theorem headerBlocksFrom_folded {lines : List (UInt8 × Bytes)} (folded : Folded lines)
    (current rest : Bytes) :
    headerBlocksFrom current (foldedText lines ++ (crlf ++ rest)) =
      headerBlocksFrom (current ++ foldedText lines) (crlf ++ rest) := by
  induction lines generalizing current with
  | nil => simp [foldedText]
  | cons line lines ih =>
      obtain ⟨blank, unbroken⟩ := folded line (by simp)
      have other : line.1 ≠ 13 := by
        rcases blank with blank | blank <;> rw [blank] <;> decide
      have later : Folded lines := fun line member => folded line (List.mem_cons_of_mem _ member)
      obtain ⟨more, starts⟩ := foldedText_starts lines rest
      have goesOn (more : Bytes) : headerBlocksFrom current (crlf ++ line.1 :: more) =
          headerBlocksFrom (current ++ crlf) (line.1 :: more) := by
        simp only [crlf, List.cons_append, List.nil_append]
        rw [headerBlocksFrom, if_pos ⟨rfl, rfl⟩]
        exact if_pos blank
      rw [foldedText_cons, goesOn, ← List.cons_append, starts,
        headerBlocksFrom_text (unbroken_of_tail other unbroken), ← starts, ih later]
      simp [foldedText]

theorem headerEnd_folded {lines : List (UInt8 × Bytes)} (folded : Folded lines) (rest : Bytes) :
    headerEnd (foldedText lines ++ (crlf ++ rest)) =
      (headerEnd (crlf ++ rest)).map ((foldedText lines).length + ·) := by
  induction lines with
  | nil => simp [foldedText]
  | cons line lines ih =>
      obtain ⟨blank, unbroken⟩ := folded line (by simp)
      have other : line.1 ≠ 13 := by
        rcases blank with blank | blank <;> rw [blank] <;> decide
      have later : Folded lines := fun line member => folded line (List.mem_cons_of_mem _ member)
      obtain ⟨more, starts⟩ := foldedText_starts lines rest
      rw [foldedText_cons, headerEnd_crlf other, ← List.cons_append, starts,
        headerEnd_text (unbroken_of_tail other unbroken), ← starts, ih later, Option.map_map,
        Option.map_map]
      congr 1
      funext index
      simp only [Function.comp, foldedText, List.flatMap_cons, List.length_append, List.length_cons,
        crlf, List.length_nil]
      omega

/-! ## Headers -/

theorem Field.firstLine_unbroken (field : Field) : ¬ crlf <:+: field.firstLine := by
  refine unbroken_append (fun byte member eq => ?_) (unbroken_of_tail (by decide) field.oneLine)
  have bounds := field.printable byte member
  rw [eq] at bounds
  exact absurd bounds.1 (by decide)

theorem Field.text_starts (field : Field) : ∃ first more, field.text = first :: more ∧
    first ≠ 13 ∧ ¬ (first = 32 ∨ first = 9) := by
  cases name : field.name with
  | nil => exact absurd name field.named
  | cons first more =>
      have bounds := (field.printable first (by simp [name])).1
      refine ⟨first, _, by rw [Field.text, Field.firstLine, name]; rfl, ?_, ?_⟩
      · rintro rfl
        exact absurd bounds (by decide)
      · rintro (rfl | rfl) <;> exact absurd bounds (by decide)

theorem headerBlocksFrom_field (field : Field) (rest : Bytes) :
    headerBlocksFrom [] (field.text ++ (crlf ++ rest)) = headerBlocksFrom field.text (crlf ++ rest) := by
  have text : field.text = field.firstLine ++ foldedText field.folded := rfl
  obtain ⟨more, starts⟩ := foldedText_starts field.folded rest
  rw [text, List.append_assoc, starts, headerBlocksFrom_text field.firstLine_unbroken, ← starts,
    headerBlocksFrom_folded field.continued]
  rfl

theorem headerEnd_field (field : Field) (rest : Bytes) :
    headerEnd (field.text ++ (crlf ++ rest)) =
      (headerEnd (crlf ++ rest)).map (field.text.length + ·) := by
  have text : field.text = field.firstLine ++ foldedText field.folded := rfl
  obtain ⟨more, starts⟩ := foldedText_starts field.folded rest
  rw [text, List.append_assoc, starts, headerEnd_text field.firstLine_unbroken, ← starts,
    headerEnd_folded field.continued, Option.map_map, List.length_append]
  congr 1
  funext index
  simp only [Function.comp]
  omega

/-- The fields before the last one are found once each, the last one with and without the line break
at its end. -/
theorem headerBlocksFrom_fields (fields : List Field) (last : Field) :
    headerBlocksFrom [] ((fields ++ [last]).flatMap Field.bytes) =
      (fields ++ [last]).map Field.text ++ [last.bytes] := by
  induction fields with
  | nil =>
      have alone : ([] ++ [last]).flatMap Field.bytes = last.text ++ (crlf ++ []) := by
        simp [Field.bytes]
      rw [alone, headerBlocksFrom_field]
      rfl
  | cons field fields ih =>
      have split : (field :: fields ++ [last]).flatMap Field.bytes =
          field.text ++ (crlf ++ (fields ++ [last]).flatMap Field.bytes) := by
        simp [Field.bytes]
      obtain ⟨next, others, eq⟩ : ∃ next others, fields ++ [last] = next :: others := by
        cases fields with
        | nil => exact ⟨last, [], rfl⟩
        | cons next fields => exact ⟨next, fields ++ [last], rfl⟩
      obtain ⟨first, more, starts, -, visible⟩ := next.text_starts
      have following : ∃ more, (fields ++ [last]).flatMap Field.bytes = first :: more := by
        rw [eq]
        exact ⟨_, by rw [List.flatMap_cons, Field.bytes, starts]; rfl⟩
      obtain ⟨more, following⟩ := following
      have cut : headerBlocksFrom field.text (crlf ++ first :: more) =
          field.text :: headerBlocksFrom [] (first :: more) := by
        simp only [crlf, List.cons_append, List.nil_append]
        rw [headerBlocksFrom, if_pos ⟨rfl, rfl⟩]
        exact if_neg visible
      rw [split, headerBlocksFrom_field, following, cut, ← following, ih]
      rfl

theorem headerEnd_fields (fields : List Field) (last : Field) (body : Bytes) :
    headerEnd (message (fields ++ [last]) body) =
      some ((fields.flatMap Field.bytes).length + last.text.length) := by
  induction fields with
  | nil =>
      have alone : message ([] ++ [last]) body = last.text ++ (crlf ++ (crlf ++ body)) := by
        simp [message, Field.bytes]
      have ends : headerEnd (crlf ++ (crlf ++ body)) = some 0 := by simp [crlf, headerEnd]
      rw [alone, headerEnd_field, ends]
      simp
  | cons field fields ih =>
      have split : message (field :: fields ++ [last]) body =
          field.text ++ (crlf ++ message (fields ++ [last]) body) := by
        simp [message, Field.bytes]
      obtain ⟨next, others, eq⟩ : ∃ next others, fields ++ [last] = next :: others := by
        cases fields with
        | nil => exact ⟨last, [], rfl⟩
        | cons next fields => exact ⟨next, fields ++ [last], rfl⟩
      obtain ⟨first, more, starts, other, -⟩ := next.text_starts
      have following : ∃ more, message (fields ++ [last]) body = first :: more := by
        rw [eq]
        exact ⟨_, by rw [message, List.flatMap_cons, Field.bytes, starts]; rfl⟩
      obtain ⟨more, following⟩ := following
      rw [split, headerEnd_field, following, headerEnd_crlf other, ← following, ih]
      simp only [Option.map_some, List.flatMap_cons, List.length_append, Field.bytes, crlf,
        List.length_cons, List.length_nil]
      congr 1
      omega

theorem splitRfc822_message (fields : List Field) (last : Field) (body : Bytes) :
    splitRfc822 (message (fields ++ [last]) body) = ((fields ++ [last]).flatMap Field.bytes, body) := by
  have header : (fields ++ [last]).flatMap Field.bytes =
      fields.flatMap Field.bytes ++ last.text ++ crlf := by simp [Field.bytes]
  have length : (fields.flatMap Field.bytes).length + last.text.length + 2 =
      ((fields ++ [last]).flatMap Field.bytes).length := by
    rw [header, List.length_append, List.length_append]
    rfl
  simp only [splitRfc822, headerEnd_fields]
  rw [length, show (fields.flatMap Field.bytes).length + last.text.length + 4 =
    ((fields ++ [last]).flatMap Field.bytes ++ crlf).length by
      rw [List.length_append, ← length]
      rfl]
  rw [message, List.drop_left, List.append_assoc, List.take_left]

theorem headerBlocks_message (fields : List Field) (last : Field) (body : Bytes) :
    headerBlocks (splitRfc822 (message (fields ++ [last]) body)).1 =
      (fields ++ [last]).map Field.text ++ [last.bytes] := by
  rw [splitRfc822_message, headerBlocks, headerBlocksFrom_fields, List.filter_eq_self]
  intro block member
  have nonempty (field : Field) : field.text ≠ [] := by
    obtain ⟨first, more, starts, -⟩ := field.text_starts
    simp [starts]
  rcases List.mem_append.mp member with member | member
  · obtain ⟨field, -, rfl⟩ := List.mem_map.mp member
    simpa using nonempty field
  · rw [List.mem_singleton.mp member]
    simp [Field.bytes, crlf]

/-! ## Names -/

theorem findIdx_crlf {text : Bytes} (unbroken : ¬ crlf <:+: text) (rest : Bytes) :
    (text ++ (crlf ++ rest)).tails.findIdx? (crlf.isPrefixOf ·) = some text.length := by
  induction text with
  | nil => simp [crlf, List.findIdx?_cons]
  | cons byte text ih =>
      have apart : crlf.isPrefixOf (byte :: (text ++ (crlf ++ rest))) = false := by
        cases text with
        | nil => simp [crlf, List.isPrefixOf]
        | cons next text =>
            have apart := unbroken_cons unbroken
            simp only [crlf, List.cons_append, List.isPrefixOf, Bool.and_true, Bool.and_eq_false_iff,
              beq_eq_false_iff_ne]
            by_cases first : byte = 13
            · exact .inr fun second => apart ⟨first, second.symm⟩
            · exact .inl fun same => first same.symm
      rw [List.cons_append, List.tails_cons, List.findIdx?_cons, apart, ih (unbroken_tail unbroken)]
      rfl

theorem findIdx_no_crlf {text : Bytes} (unbroken : ¬ crlf <:+: text) :
    text.tails.findIdx? (crlf.isPrefixOf ·) = none := by
  rw [List.findIdx?_eq_none_iff]
  intro tail member
  rw [Bool.eq_false_iff]
  intro starts
  exact unbroken ((List.isPrefixOf_iff_prefix.mp starts).isInfix.trans
    ((List.mem_tails _ _).mp member).isInfix)

theorem fromUtf8Lossy_ascii {name : Bytes} (ascii : ∀ byte ∈ name, byte.toNat < 0x80) :
    fromUtf8Lossy name.length name = name.map fun byte => Char.ofNat byte.toNat := by
  induction name with
  | nil => rfl
  | cons byte name ih =>
      rw [List.length_cons, fromUtf8Lossy, if_pos (ascii byte (by simp)),
        ih fun other member => ascii other (List.mem_cons_of_mem _ member)]
      rfl

theorem name_firstLine (field : Field) :
    ((field.firstLine.findIdx? (· == 58)).map fun colon => toAsciiUppercase (String.ofList
      (trim (fromUtf8Lossy colon (field.firstLine.take colon))))) =
        some (toAsciiUppercase field.label) := by
  have colon : field.firstLine.findIdx? (· == 58) = some field.name.length := by
    rw [Field.firstLine, List.findIdx?_append, List.findIdx?_eq_none_iff.mpr]
    · simp [List.findIdx?_cons]
    · intro byte member
      simpa using (field.printable byte member).2.2
  have ascii : ∀ byte ∈ field.name, byte.toNat < 0x80 := by
    intro byte member
    have bounds := (field.printable byte member).2.1
    omega
  have visible : ∀ c ∈ field.name.map fun byte => Char.ofNat byte.toNat, isWhitespace c = false := by
    intro c member
    obtain ⟨byte, inName, rfl⟩ := List.mem_map.mp member
    obtain ⟨low, high, -⟩ := field.printable byte inName
    have every : ∀ n : Fin 127, 33 ≤ n.val → isWhitespace (Char.ofNat n.val) = false := by
      decide +kernel
    exact every ⟨byte.toNat, by omega⟩ low
  have before : field.firstLine.take field.name.length = field.name := List.take_left
  rw [colon, Option.map_some, before, fromUtf8Lossy_ascii ascii, trim_of_visible visible]
  rfl

theorem headerName_firstLine (field : Field) {block : Bytes}
    (starts : block = field.firstLine ∨ ∃ rest, block = field.firstLine ++ (crlf ++ rest)) :
    headerName block = some (toAsciiUppercase field.label) := by
  rw [← name_firstLine field]
  rcases starts with rfl | ⟨rest, rfl⟩
  · simp only [headerName, findIdx_no_crlf field.firstLine_unbroken]
  · simp only [headerName, findIdx_crlf field.firstLine_unbroken, List.take_left]

theorem Field.starts (field : Field) (rest : Bytes) :
    field.text ++ (crlf ++ rest) = field.firstLine ∨
      ∃ more, field.text ++ (crlf ++ rest) = field.firstLine ++ (crlf ++ more) := by
  obtain ⟨more, starts⟩ := foldedText_starts field.folded rest
  have text : field.text = field.firstLine ++ foldedText field.folded := rfl
  exact .inr ⟨more, by rw [text, List.append_assoc, starts]⟩

theorem headerName_text (field : Field) :
    headerName field.text = some (toAsciiUppercase field.label) := by
  refine headerName_firstLine field ?_
  have text : field.text = field.firstLine ++ foldedText field.folded := rfl
  rw [text]
  cases field.folded with
  | nil => exact .inl (by simp [foldedText])
  | cons line lines => exact .inr ⟨_, by simp [foldedText]; rfl⟩

theorem headerName_bytes (field : Field) :
    headerName field.bytes = some (toAsciiUppercase field.label) := by
  have bytes : field.bytes = field.text ++ (crlf ++ []) := by simp [Field.bytes]
  rw [bytes]
  exact headerName_firstLine field (field.starts [])

/-! ## Selections -/

def selects (names : List String) (negated : Bool) (field : Field) : Bool :=
  names.any (eqIgnoreAsciiCase · field.label) != negated

theorem eqIgnoreAsciiCase_label (candidate label : String) :
    eqIgnoreAsciiCase candidate (toAsciiUppercase label) = eqIgnoreAsciiCase candidate label := by
  have lower : toAsciiLowercase (toAsciiUppercase label) = toAsciiLowercase label := by
    simp [toAsciiLowercase, toAsciiUppercase, Function.comp_def]
  rw [eqIgnoreAsciiCase, eqIgnoreAsciiCase, lower]

theorem rawFetchBytes_headerFields (fields : List Field) (last : Field) (body : Bytes)
    (names : List String) (negated : Bool) :
    rawFetchBytes (message (fields ++ [last]) body) (.headerFields names negated) =
      ((fields ++ [last]).filter (selects names negated)).flatMap Field.bytes ++
        ((if selects names negated last then last.bytes ++ crlf else []) ++ crlf) := by
  have chosen (field : Field) : (names.any
      (eqIgnoreAsciiCase · ((some (toAsciiUppercase field.label)).getD "")) != negated) =
        selects names negated field := by
    simp only [Option.getD_some, eqIgnoreAsciiCase_label]
    rfl
  have texts (fields : List Field) : (fields.map Field.text).flatMap (fun block =>
      if (names.any (eqIgnoreAsciiCase · ((headerName block).getD ""))) != negated then block ++ crlf
        else []) = (fields.filter (selects names negated)).flatMap Field.bytes := by
    induction fields with
    | nil => rfl
    | cons field fields ih =>
        rw [List.map_cons, List.flatMap_cons, ih, headerName_text, chosen, List.filter_cons]
        cases selects names negated field with
        | true => rfl
        | false => rfl
  have blocks := headerBlocks_message fields last body
  simp only [rawFetchBytes, selectHeaderBlocks]
  rw [show (splitRfc822 (message (fields ++ [last]) body)) =
    ((splitRfc822 (message (fields ++ [last]) body)).1, body) by rw [splitRfc822_message]]
  simp only
  rw [blocks, List.flatMap_append, texts, List.flatMap_singleton, headerName_bytes, chosen,
    List.append_assoc]

theorem rawFetchBytes_header (fields : List Field) (last : Field) (body : Bytes) :
    rawFetchBytes (message (fields ++ [last]) body) .header =
      (fields ++ [last]).flatMap Field.bytes ++ crlf := by
  simp only [rawFetchBytes, splitRfc822_message]

/-! ## The fields of a message -/

/-- The header is cut into its fields, in their order. -/
def CutIntoFields (fields : List Field) (body : Bytes) : Prop :=
  headerBlocks (splitRfc822 (message fields body)).1 = fields.map Field.text

/-- Every field is in one of the two selections by these names, once. -/
def SelectedOnce (fields : List Field) (body : Bytes) (names : List String) : Prop :=
  ∃ selected others : List Field, (selected ++ others).Perm fields ∧
    rawFetchBytes (message fields body) (.headerFields names false) =
      selected.flatMap Field.bytes ++ crlf ∧
    rawFetchBytes (message fields body) (.headerFields names true) =
      others.flatMap Field.bytes ++ crlf

def Unmatched (fields : List Field) (names : List String) : Prop :=
  ∀ field ∈ fields, ∀ name ∈ names, eqIgnoreAsciiCase name field.label = false

theorem length_of_perm {selected others fields : List Field} (same : (selected ++ others).Perm fields) :
    (selected.flatMap Field.bytes).length + (others.flatMap Field.bytes).length =
      (fields.flatMap Field.bytes).length := by
  rw [← List.length_append, ← List.flatMap_append]
  exact (same.flatMap_right Field.bytes).length_eq

theorem selects_true (names : List String) :
    selects names true = fun field => !selects names false field := by
  funext field
  simp [selects]

theorem not_selectedOnce (fields : List Field) (last : Field) (body : Bytes) (names : List String) :
    ¬ SelectedOnce (fields ++ [last]) body names := by
  rintro ⟨selected, others, same, chosen, left⟩
  rw [rawFetchBytes_headerFields] at chosen left
  have halves : ((fields ++ [last]).filter (selects names false) ++
      (fields ++ [last]).filter (selects names true)).Perm (fields ++ [last]) := by
    rw [selects_true]
    exact List.filter_append_perm ..
  have expected := length_of_perm same
  have found := length_of_perm halves
  have chosenLength := congrArg List.length chosen
  have leftLength := congrArg List.length left
  rw [selects_true] at leftLength found
  simp only [List.length_append, crlf, List.length_cons, List.length_nil] at chosenLength leftLength
  cases picked : selects names false last with
  | true =>
      simp only [picked, Bool.not_true, Bool.false_eq_true, if_true, if_false, List.length_append,
        List.length_cons, List.length_nil] at chosenLength leftLength
      omega
  | false =>
      simp only [picked, Bool.not_false, Bool.false_eq_true, if_true, if_false, List.length_append,
        List.length_cons, List.length_nil] at chosenLength leftLength
      omega

theorem selects_unmatched {fields : List Field} {names : List String} (unmatched : Unmatched fields names)
    {field : Field} (member : field ∈ fields) : selects names true field = true := by
  have none : names.any (eqIgnoreAsciiCase · field.label) = false := by
    rw [List.any_eq_false]
    intro name listed
    simp [unmatched field member name listed]
  rw [selects, none]
  rfl

theorem unmatched_repeats_last (fields : List Field) (last : Field) (body : Bytes) {names : List String}
    (unmatched : Unmatched (fields ++ [last]) names) :
    rawFetchBytes (message (fields ++ [last]) body) (.headerFields names true) =
      (fields ++ [last]).flatMap Field.bytes ++ (last.bytes ++ crlf ++ crlf) := by
  have all : (fields ++ [last]).filter (selects names true) = fields ++ [last] :=
    List.filter_eq_self.mpr fun field member => selects_unmatched unmatched member
  rw [rawFetchBytes_headerFields, all, selects_unmatched unmatched (by simp), if_pos rfl]

/-- Of a message with a header, the fields are never found once each: not by the scan, not by the two
selections by any names, and not by the negated selection by names that no field has. -/
theorem fields_never_partitioned (fields : List Field) (nonempty : fields ≠ []) (body : Bytes) :
    ¬ CutIntoFields fields body ∧ ∀ names, ¬ SelectedOnce fields body names ∧
      (Unmatched fields names → rawFetchBytes (message fields body) (.headerFields names true) ≠
        rawFetchBytes (message fields body) .header) := by
  obtain ⟨fields, last, rfl⟩ : ∃ before last, fields = before ++ [last] :=
    ⟨_, _, (List.dropLast_append_getLast nonempty).symm⟩
  refine ⟨?cut, fun names => ⟨not_selectedOnce fields last body names, ?unmatched⟩⟩
  case cut =>
    intro cut
    rw [CutIntoFields, headerBlocks_message] at cut
    have lengths := congrArg List.length cut
    simp at lengths
  case unmatched =>
    intro unmatched same
    rw [unmatched_repeats_last fields last body unmatched, rawFetchBytes_header] at same
    have lengths := congrArg List.length same
    simp only [List.length_append, crlf, List.length_cons, List.length_nil] at lengths
    omega

def subject : Field where
  name := utf8 "Subject"
  value := utf8 " Hi"
  folded := []
  named := by decide +kernel
  printable := by decide +kernel
  oneLine := by decide +kernel
  continued := by simp

theorem fields_never_partitioned_subject :
    ¬ CutIntoFields [subject] [] ∧ ¬ SelectedOnce [subject] [] ["From"] ∧
      rawFetchBytes (message [subject] []) (.headerFields ["From"] true) ≠
        rawFetchBytes (message [subject] []) .header := by
  obtain ⟨cut, selections⟩ := fields_never_partitioned [subject] (by simp) []
  have unmatched : Unmatched [subject] ["From"] := by
    simp only [Unmatched, List.mem_singleton, forall_eq]
    decide +kernel
  exact ⟨cut, (selections ["From"]).1, (selections ["From"]).2 unmatched⟩

/-- The only field of a header comes twice. -/
theorem subject_found_twice :
    ¬ (∀ fields body, fields ≠ [] → CutIntoFields fields body ∧
      (∀ names, SelectedOnce fields body names) ∧
        ∀ names, Unmatched fields names →
          rawFetchBytes (message fields body) (.headerFields names true) =
            rawFetchBytes (message fields body) .header) := by
  intro holds
  obtain ⟨cut, -⟩ := holds [subject] [] (by simp)
  have found : headerBlocks (splitRfc822 (message [subject] [])).1 =
      [utf8 "Subject: Hi", utf8 "Subject: Hi\r\n"] := by decide +kernel
  rw [CutIntoFields, found] at cut
  cases cut

end ImapCache.HeaderFields
