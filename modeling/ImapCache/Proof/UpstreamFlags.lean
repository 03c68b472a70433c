import ImapCache.Proof.UpstreamFetches
import ImapCache.Proof.Words

/-!
# The flags of an upstream message

The client takes the flags of the first FETCH response that has `UID u` in its text, which a response for
a message with a longer UID has too.
-/

namespace ImapCache.UpstreamClient
open Lib Protocol Search UpstreamLines

/-! ## Responses -/

/-- The items of a FETCH response in its parentheses. -/
def fetchText (n : Nat) (items : LineText) : LineText where
  chars := (toString n).toList ++ (" FETCH (".toList ++ (items.chars ++ [')']))
  noFeed := by
    have digits := not_mem_toDigits (c := '\n') (by decide)
    simp [digits, items.noFeed]

def fetchLine (n : Nat) (items : LineText) : ResponseLine := .untagged (fetchText n items)

def uidItem (uid : Nat) : List Char := "UID ".toList ++ (toString uid).toList

theorem not_mem_uidItem {c : Char} (uid : Nat) (noLetter : c ∉ "UID ".toList) (noDigit : c.isDigit = false) :
    c ∉ uidItem uid := by
  have digits := not_mem_toDigits noDigit uid
  have text : (toString uid).toList = Nat.toDigits 10 uid := Nat.toList_repr
  intro member
  rcases List.mem_append.mp member with letter | digit
  · exact noLetter letter
  · exact digits (text ▸ digit)

structure Flag where
  text : String
  isWord : IsWord text
  plain : ∀ c ∈ text.toList, c ≠ '(' ∧ c ≠ ')' ∧ c ≠ '"'

def flagTexts (flags : List Flag) : List String := flags.map (·.text)

theorem not_mem_join {flags : List Flag} {c : Char} (space : c ≠ ' ')
    (absent : ∀ flag : Flag, c ∉ flag.text.toList) : c ∉ (Responses.join (flagTexts flags)).toList := by
  intro member
  rcases mem_join member with rfl | ⟨word, given, inside⟩
  · exact space rfl
  · obtain ⟨flag, -, rfl⟩ := List.mem_map.mp given
    exact absent flag inside

theorem Flag.noFeed (flag : Flag) : '\n' ∉ flag.text.toList := by
  intro member
  have visible := flag.isWord.2 '\n' member
  exact absurd visible (by decide)

def flagsItem (flags : List Flag) : List Char :=
  "FLAGS (".toList ++ ((Responses.join (flagTexts flags)).toList ++ [')'])

/-- The response for the message, with its two items in either order. -/
structure OwnFetch where
  n : Nat
  flags : List Flag
  uidFirst : Bool

def OwnFetch.chars (fetch : OwnFetch) (uid : Nat) : List Char :=
  if fetch.uidFirst then uidItem uid ++ ' ' :: flagsItem fetch.flags
  else flagsItem fetch.flags ++ ' ' :: uidItem uid

theorem OwnFetch.noFeed (fetch : OwnFetch) (uid : Nat) : '\n' ∉ fetch.chars uid := by
  have noUid := not_mem_uidItem (c := '\n') uid (by decide) (by decide)
  have noFlag : '\n' ∉ (Responses.join (flagTexts fetch.flags)).toList :=
    not_mem_join (by decide) Flag.noFeed
  have opening : '\n' ∉ "FLAGS (".toList := by decide
  have noItem : '\n' ∉ flagsItem fetch.flags := by
    intro member
    rcases List.mem_append.mp member with first | others
    · exact opening first
    · rcases List.mem_append.mp others with flag | close
      · exact noFlag flag
      · exact absurd (List.mem_singleton.mp close) (by decide)
  unfold OwnFetch.chars
  split
  · rw [List.mem_append, List.mem_cons, not_or, not_or]
    exact ⟨noUid, by decide, noItem⟩
  · rw [List.mem_append, List.mem_cons, not_or, not_or]
    exact ⟨noItem, by decide, noUid⟩

def OwnFetch.items (fetch : OwnFetch) (uid : Nat) : LineText := ⟨fetch.chars uid, fetch.noFeed uid⟩

/-- A response for a message with another UID, which may have any items around the UID. -/
structure OtherFetch (own : Nat) where
  n : Nat
  uid : Nat
  before : List LineText
  after : List LineText
  other : uid ≠ own

namespace OtherFetch
variable {own : Nat} (fetch : OtherFetch own)

def items : LineText where
  chars := fetch.before.flatMap (fun item => item.chars ++ [' ']) ++
    (uidItem fetch.uid ++ fetch.after.flatMap (fun item => ' ' :: item.chars))
  noFeed := by
    have noUid := not_mem_uidItem (c := '\n') fetch.uid (by decide) (by decide)
    have noFeed (item : LineText) := item.noFeed
    simp [noUid, noFeed]

def line : ResponseLine := fetchLine fetch.n fetch.items

/-- The text of the response has the UID of the message in it and a list of flags. -/
def mentions : Bool :=
  containsText fetch.line.text (uidItem own) && containsText fetch.line.text "FLAGS (".toList

end OtherFetch

/-- The first list of flags in a text, without its parentheses. -/
def FirstFlagList (line list : List Char) : Prop :=
  ∃ before after, line = before ++ ("FLAGS (".toList ++ (list ++ ')' :: after)) ∧
    ¬ "FLAGS (".toList <:+: before ++ "FLAGS ".toList ∧ ')' ∉ list

def flagNames (list : List Char) : List String :=
  (splitWhitespace list).map fun item => String.ofList (trimChar '"' item.toList)

/-! ## Lines -/

theorem fetchLine_text (n : Nat) (items : LineText) : (fetchLine n items).text =
    '*' :: (' ' :: ((toString n).toList ++ (" FETCH (".toList ++ items.chars))) ++ [')'] := by
  simp [fetchLine, fetchText, ResponseLine.text]

theorem trimLineEnd_fetchLine (n : Nat) (items : LineText) :
    trimLineEnd (fetchLine n items).text = (fetchLine n items).text := by
  rw [fetchLine_text, trimLineEnd_append_cons _ (by decide)]
  rfl

theorem trim_fetchLine (n : Nat) (items : LineText) :
    trim (fetchLine n items).text = (fetchLine n items).text := by
  rw [fetchLine_text]
  exact trim_between _ (by decide) (by decide)

theorem fetchLine_contains (n : Nat) (items : LineText) :
    containsText (fetchLine n items).text " FETCH ".toList = true := by
  unfold containsText
  rw [Slice.findOffset_infix_iff]
  exact ⟨'*' :: ' ' :: (toString n).toList, '(' :: (items.chars ++ [')']), by
    simp [fetchLine, fetchText, ResponseLine.text]⟩

theorem exists_firstFlagList {n : Nat} {items : LineText}
    (contains : containsText (fetchLine n items).text "FLAGS (".toList = true) :
    ∃ list, FirstFlagList (fetchLine n items).text list := by
  unfold containsText at contains
  rw [Slice.findOffset_infix_iff] at contains
  obtain ⟨before, after, split, first⟩ := Occurrences.exists_first (by decide) contains
  have last : (before ++ ("FLAGS (".toList ++ after)).getLast? = some ')' := by
    rw [← split, fetchLine_text, List.getLast?_concat]
  have closes : ')' ∈ after := by
    rcases List.eq_nil_or_concat after with rfl | ⟨others, c, rfl⟩
    · have opening : before ++ ("FLAGS (".toList ++ []) = (before ++ "FLAGS ".toList) ++ ['('] := by simp
      rw [opening, List.getLast?_concat] at last
      cases last
    · have ends : before ++ ("FLAGS (".toList ++ others.concat c) =
          (before ++ ("FLAGS (".toList ++ others)) ++ [c] := by simp
      rw [ends, List.getLast?_concat] at last
      cases last
      simp
  obtain ⟨list, rest, rfl, absent⟩ := List.eq_append_cons_of_mem closes
  exact ⟨list, before, rest, split, first, absent⟩

theorem kept_fetchLine (n : Nat) (items : LineText) :
    (fetchLine n items).kept.toList = (fetchLine n items).text := by
  rw [ResponseLine.kept, String.toList_ofList, trimLineEnd_fetchLine]

theorem parseParenthesizedList_between (list : List Char) :
    parseParenthesizedList ('(' :: list ++ [')']) = flagNames list := by
  have opening : stripPrefix ['('] ('(' :: list ++ [')']) = some (list ++ [')']) := by
    simp [stripPrefix]
  have closing : stripSuffix [')'] (list ++ [')']) = some list := by
    simp [stripSuffix]
  unfold parseParenthesizedList
  rw [trim_between _ (by decide) (by decide), opening, Option.bind_some, closing]
  rfl

section
variable {n uid : Nat} {items : LineText}

theorem parseFetchFlags_skipped
    (skipped : (containsText (fetchLine n items).text (uidItem uid) &&
      containsText (fetchLine n items).text "FLAGS (".toList) = false) :
    parseFetchFlags (fetchLine n items).kept uid = .ok none := by
  have starts : startsWith "* " (fetchLine n items).text = true := rfl
  have item : ("UID " ++ toString uid).toList = uidItem uid := String.toList_append
  unfold parseFetchFlags
  rw [kept_fetchLine, trim_fetchLine]
  simp only [starts, fetchLine_contains, item, Bool.not_true, Bool.or_self, Bool.false_eq_true, ↓reduceIte]
  cases contains : containsText (fetchLine n items).text (uidItem uid) with
  | false => rfl
  | true =>
      rw [contains, Bool.true_and, containsText, Option.isSome_eq_false_iff, Option.isNone_iff_eq_none] at skipped
      have absent : Slice.findOffset (startsWith "FLAGS (") (fetchLine n items).text = none := skipped
      rw [absent]
      rfl

theorem parseFetchFlags_read {list : List Char}
    (contains : containsText (fetchLine n items).text (uidItem uid) = true)
    (first : FirstFlagList (fetchLine n items).text list) :
    parseFetchFlags (fetchLine n items).kept uid = .ok (some (flagNames list)) := by
  obtain ⟨before, after, split, noEarlier, noClose⟩ := first
  have starts : startsWith "* " (fetchLine n items).text = true := rfl
  have item : ("UID " ++ toString uid).toList = uidItem uid := String.toList_append
  have found : Slice.findOffset (startsWith "FLAGS (") (fetchLine n items).text =
      some (Slice.byteLength before) := by
    rw [split]
    exact Slice.findOffset_first (by decide) noEarlier _
  have start : Slice.byteLength before + 6 = Slice.byteLength (before ++ "FLAGS ".toList) := by
    rw [Slice.byteLength_append]
    rfl
  have shape : (fetchLine n items).text =
      (before ++ "FLAGS ".toList) ++ ('(' :: list ++ ')' :: after) := by
    rw [split]
    simp
  have onwards : textFrom (fetchLine n items).text (Slice.byteLength (before ++ "FLAGS ".toList)) =
      .ok ('(' :: list ++ ')' :: after) := by
    rw [textFrom, shape, Slice.dropBytes_append]
    rfl
  have closing : Slice.findOffset (fun rest => rest.head? == some ')') ('(' :: list ++ ')' :: after) =
      some (Slice.byteLength ('(' :: list)) := by
    refine Slice.findOffset_append ?_ rfl
    intro a b split nonempty
    cases b with
    | nil => exact absurd rfl nonempty
    | cons c b =>
        have member : c ∈ '(' :: list := by
          rw [split]
          simp
        have other : c ≠ ')' := by
          rintro rfl
          rcases List.mem_cons.mp member with opening | inside
          · cases opening
          · exact noClose inside
        simpa using other
  have stop : Slice.byteLength ('(' :: list) + Slice.byteLength (before ++ "FLAGS ".toList) + 1 =
      Slice.byteLength ((before ++ "FLAGS ".toList) ++ ('(' :: list ++ [')'])) := by
    rw [Slice.byteLength_append _ ('(' :: list ++ [')']), Slice.byteLength_append ('(' :: list)]
    have one : Slice.byteLength [')'] = 1 := rfl
    omega
  have between : textBetween (fetchLine n items).text (Slice.byteLength (before ++ "FLAGS ".toList))
      (Slice.byteLength ((before ++ "FLAGS ".toList) ++ ('(' :: list ++ [')']))) =
        .ok ('(' :: list ++ [')']) := by
    have split : (fetchLine n items).text =
        (before ++ "FLAGS ".toList) ++ ('(' :: list ++ [')']) ++ after := by
      rw [shape]
      simp
    rw [textBetween, split, Slice.slice_append]
    rfl
  unfold parseFetchFlags
  rw [kept_fetchLine, trim_fetchLine]
  simp only [starts, fetchLine_contains, item, contains, found, start, onwards, closing, stop, between,
    parseParenthesizedList_between, bind, Except.bind, Bool.not_true, Bool.or_self, Bool.false_eq_true,
    ↓reduceIte]
  rfl

end

/-! ## The response for the message -/

theorem trimChar_of_not_mem {c : Char} {text : List Char} (absent : c ∉ text) : trimChar c text = text := by
  have other : ∀ x ∈ text, (x == c) = false := by
    rintro x member
    rw [beq_eq_false_iff_ne]
    rintro rfl
    exact absent member
  have front : text.dropWhile (· == c) = text := by
    cases text with
    | nil => rfl
    | cons x rest => exact List.dropWhile_cons_of_neg (by simp [other x List.mem_cons_self])
  have back : text.reverse.dropWhile (· == c) = text.reverse := by
    cases shape : text.reverse with
    | nil => rfl
    | cons x rest =>
        have member : x ∈ text := List.mem_reverse.mp (by rw [shape]; exact List.mem_cons_self)
        exact List.dropWhile_cons_of_neg (by simp [other x member])
  unfold trimChar trimEndChar trimStartChar
  rw [front, back, List.reverse_reverse]

theorem flagNames_join (flags : List Flag) :
    flagNames (Responses.join (flagTexts flags)).toList = flagTexts flags := by
  have isWord : ∀ word ∈ flagTexts flags, IsWord word := by
    intro word given
    obtain ⟨flag, -, rfl⟩ := List.mem_map.mp given
    exact flag.isWord
  unfold flagNames
  rw [splitWhitespace_join isWord]
  refine (List.map_congr_left fun word given => ?_).trans (List.map_id _)
  obtain ⟨flag, -, rfl⟩ := List.mem_map.mp given
  have noQuote : '"' ∉ flag.text.toList := fun member => (flag.plain _ member).2.2 rfl
  rw [trimChar_of_not_mem noQuote, String.ofList_toList]
  rfl

theorem no_earlier_flags (n : Nat) {middle : List Char} (absent : 'F' ∉ middle) :
    ¬ "FLAGS (".toList <:+:
      ('*' :: ' ' :: ((toString n).toList ++ (" FETCH (".toList ++ middle))) ++ "FLAGS ".toList := by
  have pattern : "FLAGS (".toList = 'F' :: "LAGS (".toList := rfl
  have digits : 'F' ∉ (toString n).toList := by simpa using not_mem_toDigits (by decide) n
  have front : 'F' ∉ '*' :: ' ' :: ((toString n).toList ++ [' ']) := by
    simp only [List.mem_cons, List.mem_append, not_or]
    exact ⟨by decide, by decide, digits, by decide, List.not_mem_nil⟩
  have back : 'F' ∉ "ETCH (".toList ++ middle := by
    rw [List.mem_append, not_or]
    exact ⟨by decide, absent⟩
  have shape : ('*' :: ' ' :: ((toString n).toList ++ (" FETCH (".toList ++ middle))) ++ "FLAGS ".toList =
      ('*' :: ' ' :: ((toString n).toList ++ [' '])) ++ ('F' :: (("ETCH (".toList ++ middle) ++
        "FLAGS ".toList)) := by
    simp
  rw [shape, pattern, Occurrences.infix_append_iff front, List.infix_cons_iff,
    Occurrences.infix_append_iff back, not_or]
  refine ⟨fun starts => ?_, fun inside => ?_⟩
  · have second := (List.cons_prefix_cons.mp starts).2
    have letters : 'L' = 'E' := (List.cons_prefix_cons.mp second).1
    exact absurd letters (by decide)
  · have length := inside.length_le
    exact absurd length (by decide)

namespace OwnFetch
variable (fetch : OwnFetch) (uid : Nat)

def line : ResponseLine := fetchLine fetch.n (fetch.items uid)

theorem firstFlagList :
    FirstFlagList (fetch.line uid).text (Responses.join (flagTexts fetch.flags)).toList := by
  have noClose : ')' ∉ (Responses.join (flagTexts fetch.flags)).toList :=
    not_mem_join (by decide) fun flag member => (flag.plain _ member).2.1 rfl
  have noF : 'F' ∉ uidItem uid := not_mem_uidItem uid (by decide) (by decide)
  let list := (Responses.join (flagTexts fetch.flags)).toList
  let front (middle : List Char) : List Char :=
    '*' :: ' ' :: ((toString fetch.n).toList ++ (" FETCH (".toList ++ middle))
  have item : flagsItem fetch.flags = "FLAGS (".toList ++ (list ++ [')']) := rfl
  cases order : fetch.uidFirst with
  | true =>
      have absent : 'F' ∉ uidItem uid ++ [' '] := by
        rw [List.mem_append, not_or]
        exact ⟨noF, by decide⟩
      have shape : (fetch.line uid).text =
          front (uidItem uid ++ [' ']) ++ ("FLAGS (".toList ++ (list ++ ')' :: [')'])) := by
        have own : (fetch.items uid).chars = uidItem uid ++ ' ' :: flagsItem fetch.flags := if_pos order
        rw [line, fetchLine_text, own, item]
        simp only [front, List.append_assoc, List.cons_append, List.nil_append]
      exact ⟨front (uidItem uid ++ [' ']), [')'], shape, no_earlier_flags fetch.n absent, noClose⟩
  | false =>
      have shape : (fetch.line uid).text =
          front [] ++ ("FLAGS (".toList ++ (list ++ ')' :: (' ' :: (uidItem uid ++ [')'])))) := by
        have other : ¬ fetch.uidFirst = true := by rw [order]; exact Bool.false_ne_true
        have own : (fetch.items uid).chars = flagsItem fetch.flags ++ ' ' :: uidItem uid := if_neg other
        rw [line, fetchLine_text, own, item]
        simp only [front, List.append_assoc, List.cons_append, List.nil_append]
      exact ⟨front [], ' ' :: (uidItem uid ++ [')']), shape, no_earlier_flags fetch.n List.not_mem_nil,
        noClose⟩

theorem contains_uid : containsText (fetch.line uid).text (uidItem uid) = true := by
  unfold containsText
  rw [Slice.findOffset_infix_iff]
  have inItems : uidItem uid <:+: fetch.chars uid := by
    unfold chars
    split
    · exact (List.prefix_append _ _).isInfix
    · exact ⟨flagsItem fetch.flags ++ [' '], [], by simp⟩
  have inText : fetch.chars uid <:+: (fetch.line uid).text :=
    ⟨'*' :: ' ' :: ((toString fetch.n).toList ++ " FETCH (".toList), [')'], by
      simp [line, fetchLine, fetchText, ResponseLine.text, items]⟩
  exact inItems.trans inText

theorem parseFetchFlags_line :
    parseFetchFlags (fetch.line uid).kept uid = .ok (some (flagTexts fetch.flags)) := by
  rw [line, parseFetchFlags_read (fetch.contains_uid uid) (fetch.firstFlagList uid), flagNames_join]

end OwnFetch

/-! ## The answer -/

/-- The responses before the one for the message are passed over up to the first that mentions it. -/
theorem findFetchFlags_eq {uid : Nat} (before : List (OtherFetch uid)) (fetch : OwnFetch)
    (after : List String) :
    (∀ other, before.find? (·.mentions) = some other → ∀ list, FirstFlagList other.line.text list →
      findFetchFlags uid (before.map (·.line.kept) ++ (fetch.line uid).kept :: after) =
        .ok (some (flagNames list))) ∧
    (before.find? (·.mentions) = none →
      findFetchFlags uid (before.map (·.line.kept) ++ (fetch.line uid).kept :: after) =
        .ok (some (flagTexts fetch.flags))) := by
  induction before with
  | nil =>
      refine ⟨fun other found => ?_, fun _ => ?_⟩
      · cases found
      · rw [List.map_nil, List.nil_append, findFetchFlags, fetch.parseFetchFlags_line]
        rfl
  | cons first before ih =>
      cases mentions : first.mentions with
      | true =>
          rw [List.find?_cons_of_pos (by exact mentions)]
          refine ⟨?_, fun none => by cases none⟩
          rintro other found list isList
          cases found
          have contains := (Bool.and_eq_true_iff.mp mentions).1
          rw [List.map_cons, List.cons_append, findFetchFlags, OtherFetch.line,
            parseFetchFlags_read contains isList]
          rfl
      | false =>
          have skip : findFetchFlags uid ((first :: before).map (·.line.kept) ++
              (fetch.line uid).kept :: after) =
                findFetchFlags uid (before.map (·.line.kept) ++ (fetch.line uid).kept :: after) := by
            rw [List.map_cons, List.cons_append, findFetchFlags, OtherFetch.line,
              parseFetchFlags_skipped mentions]
            rfl
          rw [List.find?_cons_of_neg (by rw [mentions]; exact Bool.false_ne_true), skip]
          exact ih

/-- The untagged lines of the response to UID FETCH. -/
def fetchLines {uid : Nat} (before : List (OtherFetch uid)) (fetch : OwnFetch)
    (after : List (OtherFetch uid)) : List ResponseLine :=
  before.map (·.line) ++ fetch.line uid :: after.map (·.line)

theorem untaggedLines_fetchLines {uid : Nat} (before : List (OtherFetch uid)) (fetch : OwnFetch)
    (after : List (OtherFetch uid)) :
    untaggedLines (fetchLines before fetch after) =
      before.map (·.line.kept) ++ (fetch.line uid).kept :: after.map (·.line.kept) := by
  have untagged : (fetchLines before fetch after).filter (·.isUntagged) = fetchLines before fetch after := by
    rw [List.filter_eq_self]
    intro line member
    rcases List.mem_append.mp member with first | others
    · obtain ⟨other, -, rfl⟩ := List.mem_map.mp first
      rfl
    · rcases List.mem_cons.mp others with rfl | last
      · rfl
      · obtain ⟨other, -, rfl⟩ := List.mem_map.mp last
        rfl
  rw [untaggedLines, untagged, fetchLines, List.map_append, List.map_cons, List.map_map, List.map_map]
  rfl

theorem uidFetchFlags_answered (client : Client) {uid : Nat} (before : List (OtherFetch uid))
    (fetch : OwnFetch) (after : List (OtherFetch uid)) (text : LineText) (rest : Bytes)
    {flags : List String}
    (found : findFetchFlags uid (untaggedLines (fetchLines before fetch after)) = .ok (some flags)) :
    (uidFetchFlags (client.answered (fetchLines before fetch after) (.success text) rest) uid).map (·.1) =
      .ok flags := by
  unfold uidFetchFlags sendChecked
  rw [sendCommand_answered]
  simp only [bind, Except.bind, ensureOk_success, found, orPanics]
  rfl

theorem fetch_flags_iff (client : Client) {uid : Nat} (before : List (OtherFetch uid)) (fetch : OwnFetch)
    (after : List (OtherFetch uid)) (text : LineText) (rest : Bytes) :
    (uidFetchFlags (client.answered (fetchLines before fetch after) (.success text) rest) uid).map (·.1) =
        .ok (flagTexts fetch.flags) ↔
      ∀ other, before.find? (·.mentions) = some other → ∀ list, FirstFlagList other.line.text list →
        flagNames list = flagTexts fetch.flags := by
  obtain ⟨mistaken, own⟩ := findFetchFlags_eq before fetch (after.map (·.line.kept))
  cases found : before.find? (·.mentions) with
  | none =>
      refine iff_of_true ?_ fun other isOther => by cases isOther
      refine uidFetchFlags_answered client before fetch after text rest ?_
      rw [untaggedLines_fetchLines]
      exact own found
  | some other =>
      have read (list : List Char) (isList : FirstFlagList other.line.text list) :
          (uidFetchFlags (client.answered (fetchLines before fetch after) (.success text) rest) uid).map
            (·.1) = .ok (flagNames list) := by
        refine uidFetchFlags_answered client before fetch after text rest ?_
        rw [untaggedLines_fetchLines]
        exact mistaken other found list isList
      constructor
      · rintro answer _ ⟨⟩ list isList
        rw [read list isList] at answer
        exact Except.ok.inj answer
      · intro same
        have mentions : other.mentions = true := List.find?_some found
        obtain ⟨list, isList⟩ := exists_firstFlagList (Bool.and_eq_true_iff.mp mentions).2
        rw [read list isList, same other rfl list isList]

def deletedTwelve : OtherFetch 1 where
  n := 12
  uid := 12
  before := []
  after := [⟨"FLAGS (\\Deleted)".toList, by decide⟩]
  other := by decide

def seenOne : OwnFetch where
  n := 1
  flags := [⟨"\\Seen", ⟨by decide, by simp [isWhitespace]⟩, by simp⟩]
  uidFirst := true

/-- The flags of UID 12 are returned for UID 1. -/
theorem flags_of_longer_uid :
    (uidFetchFlags (Client.answered ⟨1, [], [], []⟩ (fetchLines [deletedTwelve] seenOne [])
      (.success ⟨"done".toList, by decide⟩) []) 1).map (·.1) = .ok ["\\Deleted"] ∧
      flagTexts seenOne.flags = ["\\Seen"] := by
  decide +kernel

end ImapCache.UpstreamClient
