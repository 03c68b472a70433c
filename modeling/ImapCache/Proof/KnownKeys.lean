import Mathlib
import ImapCache.Proof.SearchTerms

/-!
# The keys that the parser knows

Every key with its name, its values and what it asks of a message: those about UIDs, flags, keywords, sizes
and dates, which a row of a mailbox answers, and those about texts and about what is recent.
-/

namespace ImapCache.Search

/-! ## Keys about the rows -/

inductive SystemFlag where
  | seen
  | answered
  | flagged
  | deleted

def SystemFlag.text : SystemFlag → String
  | seen => "\\Seen"
  | answered => "\\Answered"
  | flagged => "\\Flagged"
  | deleted => "\\Deleted"

def SystemFlag.name : SystemFlag → String
  | seen => "SEEN"
  | answered => "ANSWERED"
  | flagged => "FLAGGED"
  | deleted => "DELETED"

inductive DateRelation where
  | before
  | on
  | since

def DateRelation.holds : DateRelation → Int → Int → Bool
  | .before, date, day => date < day
  | .on, date, day => date == day
  | .since, date, day => day ≤ date

/-- A key about what a row holds, its values read from their texts. -/
inductive RowKey (lib : Libraries) where
  | uid (text : String) (set : UidSet) (reads : parseUidSet text = .ok set)
  | flag (system : SystemFlag) (wanted : Bool)
  | keyword (word : String) (wanted : Bool)
  | larger (text : String) (size : Nat) (reads : parseU64 text.toList = some size)
  | smaller (text : String) (size : Nat) (reads : parseU64 text.toList = some size)
  | internalDate (relation : DateRelation) (text : String) (day : Int)
      (reads : lib.parseImapDate text = some day)
  | sentDate (relation : DateRelation) (text : String) (day : Int)
      (reads : lib.parseImapDate text = some day)

namespace RowKey
variable {lib : Libraries}

def name : RowKey lib → String
  | uid .. => "UID"
  | flag system wanted => if wanted then system.name else "UN" ++ system.name
  | keyword _ wanted => if wanted then "KEYWORD" else "UNKEYWORD"
  | larger .. => "LARGER"
  | smaller .. => "SMALLER"
  | internalDate .before .. => "BEFORE"
  | internalDate .on .. => "ON"
  | internalDate .since .. => "SINCE"
  | sentDate .before .. => "SENTBEFORE"
  | sentDate .on .. => "SENTON"
  | sentDate .since .. => "SENTSINCE"

def values : RowKey lib → List String
  | flag .. => []
  | uid text .. | keyword text _ | larger text .. | smaller text .. | internalDate _ text ..
  | sentDate _ text .. => [text]

def holds (view : MailboxMessageView) : RowKey lib → Bool
  | uid _ set _ => set.contains (viewUid view)
  | flag system wanted => view.flags.any (eqIgnoreAsciiCase · system.text) == wanted
  | keyword word wanted => view.keywords.any (eqIgnoreAsciiCase · word) == wanted
  | larger _ size _ => size < i64AsU64 view.sizeOctets
  | smaller _ size _ => i64AsU64 view.sizeOctets < size
  | internalDate relation _ day _ =>
      relation.holds (dayOf (Responses.internalDate view)) day
  | sentDate relation _ day _ => relation.holds (dayOf (Search.sentDate view)) day

def leaf : RowKey lib → SearchKeys
  | uid _ set _ => { SearchKeys.nothing with uidFilter := some set }
  | flag system true => { SearchKeys.nothing with requiredFlags := [system.text] }
  | flag system false => { SearchKeys.nothing with forbiddenFlags := [system.text] }
  | keyword word true => { SearchKeys.nothing with requiredKeywords := [word] }
  | keyword word false => { SearchKeys.nothing with forbiddenKeywords := [word] }
  | larger _ size _ => { SearchKeys.nothing with largerThan := some size }
  | smaller _ size _ => { SearchKeys.nothing with smallerThan := some size }
  | internalDate .before _ day _ => { SearchKeys.nothing with internalDateBefore := some day }
  | internalDate .on _ day _ => { SearchKeys.nothing with internalDateOn := some day }
  | internalDate .since _ day _ => { SearchKeys.nothing with internalDateSince := some day }
  | sentDate .before _ day _ => { SearchKeys.nothing with sentDateBefore := some day }
  | sentDate .on _ day _ => { SearchKeys.nothing with sentDateOn := some day }
  | sentDate .since _ day _ => { SearchKeys.nothing with sentDateSince := some day }

theorem matchesSearchLeaf_leaf (view : MailboxMessageView) (key : RowKey lib) :
    matchesSearchLeaf lib view key.leaf = key.holds view := by
  cases key with
  | uid text set reads => simp [matchesSearchLeaf, leaf, holds, SearchKeys.nothing, SearchKeys.all,
      matchesHeaderFilters, viewUid]
  | flag system wanted => cases wanted <;> simp [matchesSearchLeaf, leaf, holds, SearchKeys.nothing,
      SearchKeys.all, matchesHeaderFilters, containsCaseInsensitive]
  | keyword word wanted => cases wanted <;> simp [matchesSearchLeaf, leaf, holds,
      SearchKeys.nothing, SearchKeys.all, matchesHeaderFilters, containsCaseInsensitive]
  | larger text size reads => simp [matchesSearchLeaf, leaf, holds, SearchKeys.nothing,
      SearchKeys.all, matchesHeaderFilters]
  | smaller text size reads => simp [matchesSearchLeaf, leaf, holds, SearchKeys.nothing,
      SearchKeys.all, matchesHeaderFilters]
  | internalDate relation text day reads => cases relation <;> simp [matchesSearchLeaf, leaf, holds,
      DateRelation.holds, SearchKeys.nothing, SearchKeys.all, matchesHeaderFilters]
  | sentDate relation text day reads => cases relation <;> simp [matchesSearchLeaf, leaf, holds,
      DateRelation.holds, SearchKeys.nothing, SearchKeys.all, matchesHeaderFilters]

def isUid : RowKey lib → Bool
  | uid .. => true
  | _ => false

def plainNames : List String :=
  ["SEEN", "UNSEEN", "ANSWERED", "UNANSWERED", "FLAGGED", "UNFLAGGED", "DELETED", "UNDELETED",
    "KEYWORD", "UNKEYWORD", "LARGER", "SMALLER", "BEFORE", "ON", "SINCE", "SENTBEFORE", "SENTON",
    "SENTSINCE"]

theorem name_mem (key : RowKey lib) (other : key.isUid = false) : key.name ∈ plainNames := by
  cases key with
  | uid text set reads => cases other
  | flag system wanted => cases system <;> cases wanted <;> simp [name, SystemFlag.name, plainNames]
  | keyword word wanted => cases wanted <;> simp [name, plainNames]
  | larger text size reads => simp [name, plainNames]
  | smaller text size reads => simp [name, plainNames]
  | internalDate relation text day reads => cases relation <;> simp [name, plainNames]
  | sentDate relation text day reads => cases relation <;> simp [name, plainNames]

theorem name_plain (key : RowKey lib) :
    eqIgnoreAsciiCase key.name "NOT" = false ∧ eqIgnoreAsciiCase key.name "OR" = false ∧
      eqIgnoreAsciiCase key.name "UID" = key.isUid := by
  have plain : ∀ name ∈ plainNames, eqIgnoreAsciiCase name "NOT" = false ∧
      eqIgnoreAsciiCase name "OR" = false ∧ eqIgnoreAsciiCase name "UID" = false := by decide
  have uidName : eqIgnoreAsciiCase "UID" "NOT" = false ∧ eqIgnoreAsciiCase "UID" "OR" = false ∧
      eqIgnoreAsciiCase "UID" "UID" = true := by decide
  cases other : key.isUid with
  | false => exact plain _ (key.name_mem other)
  | true =>
      cases key with
      | uid text set reads => exact uidName
      | _ => cases other

theorem leaf_not_identity (key : RowKey lib) : key.leaf.isIdentity = false := by
  cases key with
  | uid text set reads => rfl
  | flag system wanted => cases wanted <;> rfl
  | keyword word wanted => cases wanted <;> rfl
  | larger text size reads => rfl
  | smaller text size reads => rfl
  | internalDate relation text day reads => cases relation <;> rfl
  | sentDate relation text day reads => cases relation <;> rfl

theorem parse_values (key : RowKey lib) :
    (if key.isUid then
      match key.values with
      | [] => .error (.parse "UID requires a sequence set")
      | value :: rest => parseUidSet value >>= fun set =>
          .ok (.leaf { SearchKeys.all with uidFilter := some set, matchAll := false }, rest)
    else parseKey lib key.name key.values >>= fun read => .ok (.leaf read.1, read.2)) =
      (.ok (.leaf key.leaf, []) : Except Error (SearchExpr × List String)) := by
  cases key with
  | uid text set reads =>
      simp only [isUid, values, ↓reduceIte, reads]
      rfl
  | flag system wanted => cases system <;> cases wanted <;> rfl
  | keyword word wanted => cases wanted <;> rfl
  | larger text size reads =>
      change ((parseSize "LARGER" text >>= _) >>= _) = _
      rw [parseSize, reads]
      rfl
  | smaller text size reads =>
      change ((parseSize "SMALLER" text >>= _) >>= _) = _
      rw [parseSize, reads]
      rfl
  | internalDate relation text day reads =>
      cases relation
      all_goals
        change ((parseImapDate lib text >>= _) >>= _) = _
        rw [parseImapDate, reads]
        rfl
  | sentDate relation text day reads =>
      cases relation
      all_goals
        change ((parseImapDate lib text >>= _) >>= _) = _
        rw [parseImapDate, reads]
        rfl

end RowKey

theorem eqIgnoreAsciiCase_toAsciiUppercase (word name : String) :
    eqIgnoreAsciiCase (toAsciiUppercase word) name = eqIgnoreAsciiCase word name := by
  have lower : toAsciiLowercase (toAsciiUppercase word) = toAsciiLowercase word := by
    simp [toAsciiLowercase, toAsciiUppercase, Function.comp_def]
  rw [eqIgnoreAsciiCase, eqIgnoreAsciiCase, lower]

/-! ## All keys -/

inductive TextField where
  | subject
  | sender
  | recipient
  | cc
  | bcc

def TextField.name : TextField → String
  | subject => "SUBJECT"
  | sender => "FROM"
  | recipient => "TO"
  | cc => "CC"
  | bcc => "BCC"

def TextField.indexed : TextField → String
  | subject => "subject"
  | sender => "from"
  | recipient => "to"
  | cc => "cc"
  | bcc => "bcc"

/-- A key that the parser knows. -/
inductive KnownKey (lib : Libraries) where
  | all
  | recent
  | new
  | old
  | inField (field : TextField) (term : String)
  | header (field value : String)
  | body (term : String)
  | text (term : String)
  | row (key : RowKey lib)

namespace KnownKey
variable {lib : Libraries}

def name : KnownKey lib → String
  | all => "ALL"
  | recent => "RECENT"
  | new => "NEW"
  | old => "OLD"
  | inField field _ => field.name
  | header .. => "HEADER"
  | body _ => "BODY"
  | text _ => "TEXT"
  | row key => key.name

def values : KnownKey lib → List String
  | all | recent | new | old => []
  | inField _ term | body term | text term => [term]
  | header field value => [field, value]
  | row key => key.values

def leaf : KnownKey lib → SearchKeys
  | all => SearchKeys.all
  | recent => { SearchKeys.nothing with recentOnly := true }
  | new => { SearchKeys.nothing with recentOnly := true, forbiddenFlags := ["\\Seen"] }
  | old => { SearchKeys.nothing with oldOnly := true }
  | inField field term =>
      { SearchKeys.nothing with queryString := some (field.indexed ++ ":" ++ quoteQuery term) }
  | header field value =>
      { SearchKeys.nothing with
          headerFilters := [(toAsciiLowercase field, value)]
          queryString := headerQueryString (toAsciiLowercase field) value }
  | body term | text term => { SearchKeys.nothing with queryString := some (textQuery (quoteQuery term)) }
  | row key => key.leaf

/-- The names of the keys that are not about the rows. -/
def otherNames : List String :=
  ["ALL", "RECENT", "NEW", "OLD", "SUBJECT", "FROM", "TO", "CC", "BCC", "HEADER", "BODY", "TEXT"]

theorem otherNames_plain : ∀ name ∈ otherNames, eqIgnoreAsciiCase name "NOT" = false ∧
    eqIgnoreAsciiCase name "OR" = false ∧ eqIgnoreAsciiCase name "UID" = false := by
  decide +kernel

def isUid : KnownKey lib → Bool
  | row key => key.isUid
  | _ => false

theorem name_plain (key : KnownKey lib) :
    eqIgnoreAsciiCase key.name "NOT" = false ∧ eqIgnoreAsciiCase key.name "OR" = false ∧
      eqIgnoreAsciiCase key.name "UID" = key.isUid := by
  cases key with
  | row key => exact key.name_plain
  | inField field term => cases field <;> exact otherNames_plain _ (by simp [otherNames, name, TextField.name])
  | _ => exact otherNames_plain _ (by simp [otherNames, name])

end KnownKey

theorem parseTerm_name {lib : Libraries} {key : KnownKey lib} {word : String}
    (spelled : toAsciiUppercase word = key.name) (fuel : Nat) (rest : List String) :
    parseTerm lib (fuel + 1) (word :: rest) =
      if key.isUid then
        match rest with
        | [] => .error (.parse "UID requires a sequence set")
        | value :: rest => parseUidSet value >>= fun set =>
            .ok (.leaf { SearchKeys.all with uidFilter := some set, matchAll := false }, rest)
      else parseKey lib key.name rest >>= fun read => .ok (.leaf read.1, read.2) := by
  obtain ⟨notNot, notOr, isUid⟩ := key.name_plain
  rw [parseTerm_cons]
  cases rest <;>
    simp only [← eqIgnoreAsciiCase_toAsciiUppercase word, spelled, notNot, notOr, isUid,
      Bool.false_eq_true, ↓reduceIte]

/-- A key as it is printed, its name in any letter case. -/
structure PrintedKey (lib : Libraries) where
  key : KnownKey lib
  word : String
  spelled : toAsciiUppercase word = key.name

namespace PrintedKey
variable {lib : Libraries} (printed : PrintedKey lib)

theorem parse : parseTerm lib 1 (printed.word :: printed.key.values) =
    .ok (.leaf printed.key.leaf, []) := by
  rw [show (1 : Nat) = 0 + 1 from rfl, parseTerm_name printed.spelled]
  cases printed.key with
  | row key => exact key.parse_values
  | inField field term => cases field <;> rfl
  | _ => rfl

def sentKey : SentKey lib := ⟨printed.word, printed.key.values, printed.key.leaf, printed.parse⟩

end PrintedKey

/-- A key about what a row holds as it is sent, its name in any letter case. -/
structure SentRowKey (lib : Libraries) where
  key : RowKey lib
  word : String
  spelled : toAsciiUppercase word = key.name

namespace SentRowKey
variable {lib : Libraries} (sent : SentRowKey lib)

def printed : PrintedKey lib := ⟨.row sent.key, sent.word, sent.spelled⟩

def tokens : List String := sent.word :: sent.key.values

end SentRowKey

end ImapCache.Search
