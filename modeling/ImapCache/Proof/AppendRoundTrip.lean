import ImapCache.Proof.CommandStream
import ImapCache.Proof.ResponseLines
import ImapCache.Proof.Words
import ImapCache.Model.UpstreamLines

/-!
# The round trip of APPEND

The client of the upstream side and the server of the other side agree on APPEND. The flags are the
only argument in parentheses and the marker is the last one, so that the server finds each argument
where the client put it, whatever the name of the mailbox is.
-/

namespace ImapCache.AppendRoundTrip
open Lib Prog Protocol Session CommandStream UpstreamLines Commands

/-- A flag without whitespace, parentheses, brackets or quotes. -/
def FlagAtom (flag : String) : Prop :=
  flag.toList ≠ [] ∧ ∀ c ∈ flag.toList,
    isWhitespace c = false ∧ c ≠ '(' ∧ c ≠ ')' ∧ c ≠ '[' ∧ c ≠ ']' ∧ c ≠ '"'

instance (flag : String) : Decidable (FlagAtom flag) :=
  have := List.decidableBAll (fun c =>
    isWhitespace c = false ∧ c ≠ '(' ∧ c ≠ ')' ∧ c ≠ '[' ∧ c ≠ ']' ∧ c ≠ '"') flag.toList
  inferInstanceAs (Decidable (_ ∧ _))

/-- What the library of dates promises about a date: reading is the inverse of printing, and the
text starts with a digit of the day and stays on a line. -/
structure DatePrinted (lib : Libraries) (date : Int) : Prop where
  inverse : lib.parseImapDateTime (lib.formatImapDate date) = .ok date
  day : ∃ c, (lib.formatImapDate date).toList.head? = some c ∧ c.isDigit = true
  oneLine : Responses.OneLine (lib.formatImapDate date)

/-- Where the handler looks for the body among the arguments. -/
def bodyIndex (args : List String) : Nat :=
  (args.zipIdx.reverse.find? fun arg => arg.1.toList.head? == some '\x7b').map (·.2)
    |>.getD (args.length - 1)

/-! ## The list of flags -/

theorem bareToken_inside {inner : List Char}
    (plain : ∀ c ∈ inner, c ≠ '(' ∧ c ≠ ')' ∧ c ≠ '[' ∧ c ≠ ']') (rest : List Char) :
    bareToken 1 0 (inner ++ ')' :: rest) =
      (inner ++ ')' :: (bareToken 0 0 rest).1, (bareToken 0 0 rest).2) := by
  induction inner with
  | nil =>
      rw [List.nil_append, bareToken]
      simp [depthAfter]
  | cons c inner ih =>
      obtain ⟨opening, closing, left, right⟩ := plain c (List.mem_cons_self ..)
      rw [List.cons_append, bareToken]
      simp only [depthAfter, opening, closing, left, right, ↓reduceIte, one_ne_zero, beq_iff_eq,
        Bool.and_eq_true, and_false, false_and]
      rw [ih fun c member => plain c (List.mem_cons_of_mem _ member)]
      rfl

theorem tokens_parens (line : List Char) {inner : List Char}
    (plain : ∀ c ∈ inner, c ≠ '(' ∧ c ≠ ')' ∧ c ≠ '[' ∧ c ≠ ']') (rest : List Char) :
    tokens line (' ' :: '(' :: (inner ++ ')' :: ' ' :: rest)) =
      (tokens line (' ' :: rest)).map (String.ofList ('(' :: (inner ++ [')'])) :: ·) := by
  have token : bareToken 0 0 ('(' :: (inner ++ ')' :: ' ' :: rest)) =
      ('(' :: (inner ++ [')']), ' ' :: rest) := by
    rw [bareToken_cons _ (by decide)]
    change ('(' :: (bareToken 1 0 _).1, (bareToken 1 0 _).2) = _
    rw [bareToken_inside plain]
    rfl
  rw [tokens_space line _ (by decide), tokens_bare line _ (by decide) (by decide), token]

theorem FlagAtom.isWord {flag : String} (atom : FlagAtom flag) : IsWord flag :=
  ⟨atom.1, fun c member => (atom.2 c member).1⟩

theorem join_plain {flags : List String} (atoms : ∀ flag ∈ flags, FlagAtom flag) :
    ∀ c ∈ (Responses.join flags).toList, c ≠ '(' ∧ c ≠ ')' ∧ c ≠ '[' ∧ c ≠ ']' := by
  intro c member
  rcases mem_join member with rfl | ⟨flag, given, inside⟩
  · decide
  · obtain ⟨-, noOpen, noClose, noBracket, noEnd, -⟩ := (atoms flag given).2 c inside
    exact ⟨noOpen, noClose, noBracket, noEnd⟩

theorem parseFlagList_join {flags : List String} (some : flags ≠ [])
    (atoms : ∀ flag ∈ flags, FlagAtom flag) :
    parseFlagList (String.ofList ('(' :: ((Responses.join flags).toList ++ [')']))) = flags := by
  have trimmed : trim ('(' :: (Responses.join flags).toList ++ [')']) =
      '(' :: (Responses.join flags).toList ++ [')'] := trim_between _ (by decide) (by decide)
  have nonempty : (flags.map String.toList).filter (!·.isEmpty) = flags.map String.toList := by
    rw [List.filter_eq_self]
    intro text member
    obtain ⟨flag, given, rfl⟩ := List.mem_map.mp member
    simpa using (atoms flag given).1
  unfold parseFlagList
  rw [String.toList_ofList, ← List.cons_append, trimmed]
  simp only [List.cons_append, List.getLast?_concat, ↓reduceIte, List.dropLast_concat,
    splitOnP_join some fun flag given => (atoms flag given).isWord, nonempty, List.map_map]
  simp

/-! ## The line -/

def flagToken (flags : List String) : List String :=
  if flags = [] then [] else [String.ofList ('(' :: ((Responses.join flags).toList ++ [')']))]

def dateToken (lib : Libraries) (internalDate : Option Int) : List String :=
  (internalDate.map lib.formatImapDate).toList

def announced (data : Bytes) : Literal := ⟨false, data⟩

def received (lib : Libraries) (nextTag : Nat) (mailbox : String) (flags : List String)
    (internalDate : Option Int) (data : Bytes) : ParsedCommand :=
  ⟨tagText nextTag, "APPEND", mailbox :: (flagToken flags ++ dateToken lib internalDate ++
    [String.ofList (announced data).marker])⟩

theorem quote_eq (value : String) : quote value = Responses.quoteImapString value := rfl

/-- The line without its end, in the parts that the tokens are read from. -/
def sentText (lib : Libraries) (nextTag : Nat) (mailbox : String) (flags : List String)
    (internalDate : Option Int) (data : Bytes) : List Char :=
  (tagText nextTag).toList ++ ' ' :: ("APPEND".toList ++
    ([mailbox].flatMap (fun arg => ' ' :: (Responses.quoteImapString arg).toList) ++
    ((flagToken flags).flatMap (fun token => ' ' :: token.toList) ++
    ((dateToken lib internalDate).flatMap (fun arg => ' ' :: (Responses.quoteImapString arg).toList) ++
    ' ' :: (announced data).marker))))

theorem appendLine_eq (lib : Libraries) (nextTag : Nat) (mailbox : String) (flags : List String)
    (internalDate : Option Int) (data : Bytes) :
    appendLine lib nextTag mailbox flags internalDate data =
      String.ofList (sentText lib nextTag mailbox flags internalDate data ++ crlf) := by
  apply String.toList_injective
  have marker : "\x7b".toList ++ (toString data.length).toList ++ "\x7d\r\n".toList =
      (announced data).marker ++ crlf := by
    simp [announced, Literal.marker, crlf]
  unfold appendLine sentText flagToken dateToken
  cases flags with
  | nil =>
      cases internalDate with
      | none => simp [quote_eq, ← marker]
      | some date => simp [quote_eq, ← marker]
  | cons flag flags =>
      cases internalDate with
      | none => simp [quote_eq, ← marker]
      | some date => simp [quote_eq, ← marker]

theorem tag_plain (nextTag : Nat) :
    ∀ c ∈ (tagText nextTag).toList, isWordChar c = true ∧ c ≠ '"' ∧ c ≠ '[' ∧ c ≠ '\r' ∧ c ≠ '\n' := by
  intro c member
  have digits : (toString nextTag).toList = Nat.toDigits 10 nextTag := Nat.toList_repr
  unfold tagText at member
  rw [String.toList_append, String.toList_append, String.toList_ofList, String.toList_ofList, digits,
    List.mem_append, List.mem_append, List.mem_singleton] at member
  have digit : c.isDigit = true ∨ c = 'A' := by
    rcases member with (member | member) | member
    · exact .inr member
    · rw [(List.mem_replicate.mp member).2]
      exact .inl rfl
    · exact .inl (Nat.isDigit_of_mem_toDigits (by decide) (by decide) member)
  rcases digit with digit | rfl
  · have range : 48 ≤ c.toNat ∧ c.toNat ≤ 57 := by
      simpa [Char.isDigit, UInt32.le_iff_toNat_le] using digit
    have other : ∀ d : Char, d.toNat < 48 ∨ 57 < d.toNat → c ≠ d := by
      rintro d outside rfl
      omega
    have visible : isWhitespace c = false := by
      simp [isWhitespace]
      omega
    refine ⟨?_, other _ (by decide), other _ (by decide), other _ (by decide), other _ (by decide)⟩
    simp [isWordChar, visible, other '(' (by decide), other ')' (by decide), other ']' (by decide)]
  · decide

theorem tokens_extras (lib : Libraries) {flags : List String}
    (atoms : ∀ flag ∈ flags, FlagAtom flag) (internalDate : Option Int) (data : Bytes)
    (line : List Char) :
    tokens line ((flagToken flags).flatMap (fun token => ' ' :: token.toList) ++
      ((dateToken lib internalDate).flatMap
        (fun arg => ' ' :: (Responses.quoteImapString arg).toList) ++ ' ' :: (announced data).marker)) =
      .ok (flagToken flags ++ dateToken lib internalDate ++
        [String.ofList (announced data).marker]) := by
  have dated : tokens line ((dateToken lib internalDate).flatMap
      (fun arg => ' ' :: (Responses.quoteImapString arg).toList) ++ ' ' :: (announced data).marker) =
      .ok (dateToken lib internalDate ++ [String.ofList (announced data).marker]) := by
    rw [tokens_args, (announced data).tokens_marker]
    rfl
  unfold flagToken
  split
  · rw [List.flatMap_nil, List.nil_append, List.nil_append]
    exact dated
  · -- the list is followed by a space, before the date or before the marker
    obtain ⟨rest, space⟩ : ∃ rest, (dateToken lib internalDate).flatMap
        (fun arg => ' ' :: (Responses.quoteImapString arg).toList) ++
          ' ' :: (announced data).marker = ' ' :: rest := by
      unfold dateToken
      cases internalDate with
      | none => exact ⟨(announced data).marker, by simp⟩
      | some date =>
          exact ⟨(Responses.quoteImapString (lib.formatImapDate date)).toList ++
            ' ' :: (announced data).marker, by simp⟩
    have parens := tokens_parens line (join_plain atoms) rest
    rw [space] at dated ⊢
    rw [List.flatMap_singleton, String.toList_ofList, List.cons_append, List.cons_append,
      List.append_assoc, List.singleton_append, parens, dated]
    rfl

theorem tokens_sentText (lib : Libraries) (nextTag : Nat) (mailbox : String) {flags : List String}
    (atoms : ∀ flag ∈ flags, FlagAtom flag) (internalDate : Option Int) (data : Bytes)
    (line : List Char) :
    tokens line (sentText lib nextTag mailbox flags internalDate data) =
      .ok (tagText nextTag :: "APPEND" :: mailbox :: (flagToken flags ++ dateToken lib internalDate ++
        [String.ofList (announced data).marker])) := by
  have tag := tag_plain nextTag
  have closed : (tagText nextTag).toList.count '[' = 0 :=
    List.count_eq_zero.mpr fun member => (tag _ member).2.2.1 rfl
  have nonempty : (tagText nextTag).toList ≠ [] := by simp [tagText]
  unfold sentText
  rw [tokens_word line nonempty (fun c member => (tag c member).1)
      (fun member => (tag _ member).2.1 rfl) (by rw [closed]; rfl),
    tokens_space line _ (by decide),
    tokens_word line (by decide) (List.all_eq_true.mp (by decide)) (by decide) (by rfl), tokens_args,
    tokens_extras lib atoms]
  simp [Except.map]

theorem sentText_oneLine {lib : Libraries} (nextTag : Nat) {mailbox : String}
    (named : Responses.OneLine mailbox) {flags : List String}
    (atoms : ∀ flag ∈ flags, FlagAtom flag) {internalDate : Option Int}
    (dates : ∀ date ∈ internalDate, DatePrinted lib date) (data : Bytes) :
    ∀ c ∈ sentText lib nextTag mailbox flags internalDate data, c ≠ '\r' ∧ c ≠ '\n' := by
  have space : ∀ c ∈ [' '], c ≠ '\r' ∧ c ≠ '\n' := by simp
  have quoted : ∀ args : List String, (∀ arg ∈ args, Responses.OneLine arg) →
      ∀ c ∈ args.flatMap (fun arg => ' ' :: (Responses.quoteImapString arg).toList),
        c ≠ '\r' ∧ c ≠ '\n' := by
    intro args oneLine c member
    obtain ⟨arg, given, member⟩ := List.mem_flatMap.mp member
    have quote : Responses.OneLine (Responses.quoteImapString arg) := by
      rw [Responses.oneLine_iff, Responses.lineBreaks_quoteImapString, ← Responses.oneLine_iff]
      exact oneLine arg given
    rcases List.mem_cons.mp member with rfl | member
    · decide
    · exact quote c member
  have listed : ∀ c ∈ (flagToken flags).flatMap (fun token => ' ' :: token.toList),
      c ≠ '\r' ∧ c ≠ '\n' := by
    have breaks : Responses.OneLine (Responses.join flags) := by
      rw [Responses.oneLine_iff, Responses.lineBreaks_join, List.flatMap_eq_nil_iff]
      intro flag given
      rw [← Responses.oneLine_iff]
      intro c member
      have visible := ((atoms flag given).2 c member).1
      constructor
      · rintro rfl
        exact absurd visible (by decide)
      · rintro rfl
        exact absurd visible (by decide)
    intro c member
    unfold flagToken at member
    split at member
    · exact absurd member List.not_mem_nil
    · rw [List.flatMap_singleton, String.toList_ofList, List.mem_cons, List.mem_cons,
        List.mem_append, List.mem_singleton] at member
      rcases member with rfl | rfl | member | rfl
      · decide
      · decide
      · exact breaks c member
      · decide
  have dated : ∀ arg ∈ dateToken lib internalDate, Responses.OneLine arg := by
    intro arg given
    obtain ⟨date, known, rfl⟩ := Option.mem_map.mp (Option.mem_toList.mp given)
    exact (dates date known).oneLine
  intro c member
  unfold sentText at member
  simp only [List.mem_append, List.mem_cons] at member
  rcases member with member | rfl | member | member | member | member | rfl | member
  · exact (tag_plain nextTag c member).2.2.2
  · decide
  · exact (by decide : Responses.OneLine "APPEND") c member
  · exact quoted [mailbox] (by simpa using named) c member
  · exact listed c member
  · exact quoted _ dated c member
  · decide
  · exact ((announced data).marker_plain c member).2.2

theorem parseCommand_appendLine {lib : Libraries} (nextTag : Nat) {mailbox : String}
    (named : Responses.OneLine mailbox) {flags : List String}
    (atoms : ∀ flag ∈ flags, FlagAtom flag) {internalDate : Option Int}
    (dates : ∀ date ∈ internalDate, DatePrinted lib date) (data : Bytes) :
    parseCommand (appendLine lib nextTag mailbox flags internalDate data) =
      .ok (some (received lib nextTag mailbox flags internalDate data)) := by
  have oneLine := sentText_oneLine nextTag named atoms dates data
  have trimmed := trimLineEnd_append (fun member => (oneLine _ member).1 rfl)
    (fun member => (oneLine _ member).2 rfl)
  have nonempty : (sentText lib nextTag mailbox flags internalDate data).isEmpty = false := by
    simp [sentText]
  unfold parseCommand
  rw [appendLine_eq, String.toList_ofList, trimmed]
  simp only [nonempty, Bool.false_eq_true, ↓reduceIte]
  change (tokens _ (sentText lib nextTag mailbox flags internalDate data)).bind _ = _
  rw [tokens_sentText lib nextTag mailbox atoms]
  rfl

/-! ## The arguments -/

theorem bodyIndex_received (args : List String) (data : Bytes) :
    bodyIndex (args ++ [String.ofList (announced data).marker]) = args.length := by
  have brace : (String.ofList (announced data).marker).toList.head? == some '\x7b' := by
    simp [Literal.marker]
  unfold bodyIndex
  rw [List.zipIdx_append, List.reverse_append]
  simp only [List.zipIdx_singleton, Nat.zero_add, List.reverse_singleton, List.singleton_append]
  rw [List.find?_cons_of_pos (by exact brace)]
  rfl

theorem parseAppendMetadata_received {lib : Libraries} (nextTag : Nat) (mailbox : String)
    {flags : List String} (atoms : ∀ flag ∈ flags, FlagAtom flag) {internalDate : Option Int}
    (dates : ∀ date ∈ internalDate, DatePrinted lib date) (data : Bytes) :
    let args := (received lib nextTag mailbox flags internalDate data).args
    parseAppendMetadata lib args (bodyIndex args) = .ok (flags, internalDate) := by
  intro args
  have last : args = (mailbox :: (flagToken flags ++ dateToken lib internalDate)) ++
      [String.ofList (announced data).marker] := rfl
  have extras : (args.take (bodyIndex args)).drop 1 =
      flagToken flags ++ dateToken lib internalDate := by
    rw [last, bodyIndex_received, List.take_left]
    rfl
  have read : ∀ date ∈ internalDate,
      Commands.parseImapDateTime lib (lib.formatImapDate date) = .ok date := by
    intro date known
    unfold Commands.parseImapDateTime
    rw [(dates date known).inverse]
  have digit : ∀ date ∈ internalDate,
      ((lib.formatImapDate date).toList.head? == some '(') = false := by
    intro date known
    obtain ⟨c, first, digit⟩ := (dates date known).day
    rw [first]
    simp only [Option.some_beq_some, beq_eq_false_iff_ne]
    rintro rfl
    exact absurd digit (by decide)
  unfold parseAppendMetadata
  rw [extras]
  by_cases none : flags = []
  · subst none
    cases internalDate with
    | none => rfl
    | some date =>
        change (if ((lib.formatImapDate date).toList.head? == some '(') = true then _ else
          (Commands.parseImapDateTime lib (lib.formatImapDate date)).map _) = _
        rw [digit date rfl, read date rfl]
        rfl
  · have list := parseFlagList_join none atoms
    rw [flagToken, if_neg none]
    cases internalDate with
    | none =>
        simp only [dateToken, Option.map_none, Option.toList_none, List.append_nil,
          String.toList_ofList, List.head?_cons, beq_self_eq_true, ↓reduceIte, list]
    | some date =>
        simp only [dateToken, Option.map_some, Option.toList_some, List.cons_append, List.nil_append,
          String.toList_ofList, List.head?_cons, beq_self_eq_true, digit date rfl, read date rfl]
        change Except.ok (parseFlagList _, Option.some date) = _
        rw [list]

theorem append_received {context : Context} {accountId : Int}
    (owner : context.session.accountId = some accountId) {mailbox : String} {args : List String}
    {flags : List String} {internalDate : Option Int} (first : args.head? = some mailbox)
    (metadata : parseAppendMetadata context.lib args (bodyIndex args) = .ok (flags, internalDate))
    (data : Bytes) :
    Commands.append context args (some data) = (await (.findMailbox accountId mailbox)).bind fun
      | some row => appendMessage context accountId row mailbox flags internalDate data
      | none => context.reply [no context.tag "NONEXISTENT" "selected mailbox not found"] := by
  unfold Commands.append
  rw [owner, first]
  simp only [bind_eq]
  congr 1
  funext row
  cases row with
  | none => rfl
  | some row =>
      unfold bodyIndex at metadata
      dsimp only
      rw [metadata]
      rfl

/-- The line and the payload of an append are read as one command, whose arguments mean the mailbox,
the flags and the date that were given, and whose literal is the message. -/
theorem append_comes_through (lib : Libraries) (nextTag : Nat) {mailbox : String}
    (named : Responses.OneLine mailbox) {flags : List String}
    (atoms : ∀ flag ∈ flags, FlagAtom flag) {internalDate : Option Int}
    (dates : ∀ date ∈ internalDate, DatePrinted lib date) {data : Bytes}
    (fits : data.length ≤ maxAllocation) (rest : Bytes) :
    ∃ command : ParsedCommand,
      readRound (Mutations.utf8 (appendLine lib nextTag mailbox flags internalDate data) ++
        (appendPayload data ++ rest)) = .ret (some (some (command, some data), [0x0D, 0x0A] ++ rest)) ∧
      command.tag = tagText nextTag ∧ command.name = "APPEND" ∧ command.args.head? = some mailbox ∧
      parseAppendMetadata lib command.args (bodyIndex command.args) = .ok (flags, internalDate) := by
  have oneLine := sentText_oneLine nextTag named atoms dates data
  have parsed := parseCommand_appendLine nextTag named atoms dates data
  refine ⟨received lib nextTag mailbox flags internalDate data, ?_, rfl, rfl, rfl,
    parseAppendMetadata_received nextTag mailbox atoms dates data⟩
  have marker : lastMarker (received lib nextTag mailbox flags internalDate data) =
      .ok (some (data.length, false)) := by
    have last : (received lib nextTag mailbox flags internalDate data).args.getLast? =
        some (String.ofList (announced data).marker) := by
      simp only [received, ← List.cons_append, List.getLast?_concat]
    have fits' : (announced data).body.length < 18446744073709551616 :=
      Nat.lt_of_le_of_lt fits (by decide)
    unfold lastMarker
    rw [last]
    change parseLiteralMarker _ = _
    rw [(announced data).parse_marker, if_pos fits']
    rfl
  have available : ¬ (appendPayload data ++ rest).length < data.length := by
    simp [appendPayload]
  rw [appendLine_eq] at parsed ⊢
  rw [readRound_line (fun member => (oneLine _ member).2 rfl),
    readCommandWithLiteral_parsed parsed, marker]
  simp only [orPanic, Prog.ret_bind]
  rw [if_neg (Nat.not_lt.mpr fits), if_neg available]
  simp [appendPayload]

/-- The library of dates on the last day of February 2000. -/
def datedLibraries : Libraries :=
  { Sample.libraries with
    parseImapDateTime := fun text =>
      if text = "29-Feb-2000 00:00:00 +0000" then .ok 951782400000000 else .error "premature end of input" }

theorem datedLibraries_printed : ∀ date ∈ some (951782400000000 : Int), DatePrinted datedLibraries date := by
  intro date known
  obtain rfl := Option.some.inj known
  exact ⟨by decide +kernel, ⟨'2', by decide +kernel, rfl⟩, by decide +kernel⟩

/-- Two flags, a date and a mailbox whose name looks like an announcement. -/
theorem append_comes_through_sample :
    ∃ command : ParsedCommand,
      readRound (Mutations.utf8 (appendLine datedLibraries 7 "\x7b3\x7d \"(" ["\\Seen", "\x7b3\x7d"]
        (some 951782400000000) [0x61, 0x0A]) ++ (appendPayload [0x61, 0x0A] ++ [])) =
          .ret (some (some (command, some [0x61, 0x0A]), [0x0D, 0x0A] ++ [])) ∧
      command.tag = tagText 7 ∧ command.name = "APPEND" ∧
      command.args.head? = some "\x7b3\x7d \"(" ∧
      parseAppendMetadata datedLibraries command.args (bodyIndex command.args) =
        .ok (["\\Seen", "\x7b3\x7d"], some 951782400000000) :=
  append_comes_through datedLibraries 7 (by decide) (by decide)
    datedLibraries_printed (by decide) []

end ImapCache.AppendRoundTrip
