import ImapCache.Lib.Occurrences
import ImapCache.Model.UpstreamClient
import ImapCache.Proof.CommandStream

/-!
# The status of an upstream response

The client looks for ` OK ` anywhere in the tagged line, so the text after the status decides too. A
status that is not OK is taken for it exactly if the text has an OK between spaces.
-/

namespace ImapCache.UpstreamClient
open Lib Protocol Search UpstreamLines
open CommandStream (crlf)

/-! ## Lines -/

def isLineBreak (c : Char) : Bool := c == '\r' || c == '\n'

theorem isLineBreak_of_visible {c : Char} (visible : isWhitespace c = false) : isLineBreak c = false := by
  by_contra isBreak
  simp only [isLineBreak, Bool.not_eq_false, Bool.or_eq_true, beq_iff_eq] at isBreak
  rcases isBreak with rfl | rfl
  · exact absurd visible (by decide)
  · exact absurd visible (by decide)

theorem trimLineEnd_eq (line : List Char) : trimLineEnd line = line.rdropWhile isLineBreak := rfl

theorem trimLineEnd_crlf (text : List Char) : trimLineEnd (text ++ crlf) = trimLineEnd text := by
  rw [trimLineEnd_eq, trimLineEnd_eq, Trimming.rdropWhile_append]
  rfl

theorem trimLineEnd_append_cons (before : List Char) {c : Char} (other : isLineBreak c = false)
    (after : List Char) : trimLineEnd (before ++ c :: after) = before ++ c :: trimLineEnd after := by
  have kept : (c :: after).rdropWhile isLineBreak = c :: after.rdropWhile isLineBreak := by
    rw [Trimming.rdropWhile_cons, if_neg (by simp [other])]
  rw [trimLineEnd_eq, Trimming.rdropWhile_append, kept, if_neg (List.cons_ne_nil _ _)]
  rfl

def lineBytes (text : List Char) : Bytes := Mutations.utf8 (String.ofList (text ++ crlf))

theorem lineBytes_split (text : List Char) :
    lineBytes text = Mutations.utf8 (String.ofList (text ++ ['\r'])) ++ [0x0A] := by
  have shape : text ++ crlf = (text ++ ['\r']) ++ ['\n'] := by simp [crlf]
  rw [lineBytes, shape, String.ofList_append, CommandStream.utf8_append]
  rfl

theorem lineBytes_ne_nil (text : List Char) : lineBytes text ≠ [] := by
  rw [lineBytes_split]
  simp

theorem readTextLine_line {text : List Char} (noFeed : '\n' ∉ text) (rest : Bytes) :
    readTextLine (lineBytes text ++ rest) = .ok (String.ofList (trimLineEnd text), rest) := by
  have line : Session.readLine (lineBytes text ++ rest) = (lineBytes text, rest) := by
    rw [lineBytes_split, List.append_assoc]
    exact CommandStream.readLine_append (CommandStream.lineFeed_not_mem_utf8 (by simp [noFeed])) rest
  have nonempty : (lineBytes text).isEmpty = false := by simpa using lineBytes_ne_nil text
  have decoded : fromUtf8 (lineBytes text) = some (String.ofList (text ++ crlf)) :=
    CommandStream.fromUtf8_utf8 _
  unfold readTextLine
  simp only [line, nonempty, decoded, Bool.false_eq_true, ↓reduceIte, String.toList_ofList,
    trimLineEnd_crlf]

/-! ## Responses -/

/-- What a line has after its first word. -/
structure LineText where
  chars : List Char
  noFeed : '\n' ∉ chars

inductive ResponseLine where
  | untagged (text : LineText)
  | continuation (text : LineText)

namespace ResponseLine

def text : ResponseLine → List Char
  | untagged text => '*' :: ' ' :: text.chars
  | continuation text => '+' :: ' ' :: text.chars

def kept (line : ResponseLine) : String := String.ofList (trimLineEnd line.text)

def isUntagged : ResponseLine → Bool
  | untagged _ => true
  | continuation _ => false

theorem noFeed (line : ResponseLine) : '\n' ∉ line.text := by
  cases line with
  | untagged text => simpa [ResponseLine.text] using text.noFeed
  | continuation text => simpa [ResponseLine.text] using text.noFeed

end ResponseLine

def responseBytes (lines : List ResponseLine) : Bytes := lines.flatMap fun line => lineBytes line.text

def untaggedLines (lines : List ResponseLine) : List String :=
  (lines.filter (·.isUntagged)).map (·.kept)

def continuationLines (lines : List ResponseLine) : List String :=
  (lines.filter (!·.isUntagged)).map (·.kept)

theorem length_le_responseBytes (lines : List ResponseLine) :
    lines.length ≤ (responseBytes lines).length := by
  induction lines with
  | nil => exact Nat.le_refl _
  | cons line lines ih =>
      have positive := List.length_pos_of_ne_nil (lineBytes_ne_nil line.text)
      rw [responseBytes, List.flatMap_cons, List.length_append, List.length_cons]
      rw [responseBytes] at ih
      omega

theorem readResponse_lines (tag : String) (lines : List ResponseLine) (fuel : Nat)
    (untagged continuations : List String) (incoming : Bytes) :
    readResponse tag (fuel + lines.length) untagged continuations (responseBytes lines ++ incoming) =
      readResponse tag fuel (untagged ++ untaggedLines lines)
        (continuations ++ continuationLines lines) incoming := by
  induction lines generalizing untagged continuations with
  | nil => simp [responseBytes, untaggedLines, continuationLines]
  | cons line lines ih =>
      have split : responseBytes (line :: lines) ++ incoming =
          lineBytes line.text ++ (responseBytes lines ++ incoming) := by
        simp [responseBytes]
      rw [List.length_cons, ← Nat.add_assoc, split, readResponse, readTextLine_line line.noFeed]
      cases line with
      | untagged text =>
          have shape : trimLineEnd (ResponseLine.untagged text).text =
              '*' :: ' ' :: trimLineEnd text.chars :=
            trimLineEnd_append_cons ['*'] (by decide) text.chars
          have starts : startsWith "+ " (String.ofList (trimLineEnd (ResponseLine.untagged text).text)).toList =
              false := by
            rw [String.toList_ofList, shape]
            rfl
          have starts' : startsWith "* " (String.ofList (trimLineEnd (ResponseLine.untagged text).text)).toList =
              true := by
            rw [String.toList_ofList, shape]
            simp [startsWith]
          change (if _ then _ else if _ then _ else _) = _
          rw [if_neg (by rw [starts]; exact Bool.false_ne_true), if_pos starts', ih]
          simp [untaggedLines, continuationLines, ResponseLine.isUntagged, ResponseLine.kept]
      | continuation text =>
          have shape : trimLineEnd (ResponseLine.continuation text).text =
              '+' :: ' ' :: trimLineEnd text.chars :=
            trimLineEnd_append_cons ['+'] (by decide) text.chars
          have starts : startsWith "+ " (String.ofList (trimLineEnd (ResponseLine.continuation text).text)).toList =
              true := by
            rw [String.toList_ofList, shape]
            simp [startsWith]
          change (if _ then _ else _) = _
          rw [if_pos starts, ih]
          simp [untaggedLines, continuationLines, ResponseLine.isUntagged, ResponseLine.kept]

/-! ## Tagged lines -/

/-- The status of a tagged line and the text after it. -/
structure StatusLine where
  status : List Char
  text : List Char
  noSpace : ' ' ∉ status
  noFeed : '\n' ∉ status ++ text

def StatusLine.chars (line : StatusLine) (nextTag : Nat) : List Char :=
  (tagText nextTag).toList ++ ' ' :: (line.status ++ ' ' :: line.text)

theorem tagText_toList (nextTag : Nat) :
    ∃ digits, (tagText nextTag).toList = 'A' :: digits ∧ ∀ c ∈ digits, c.isDigit = true := by
  refine ⟨List.replicate (4 - (toString nextTag).length) '0' ++ (toString nextTag).toList, ?_, ?_⟩
  · simp [tagText, String.toList_append]
  · intro c member
    rcases List.mem_append.mp member with zero | digit
    · rw [List.eq_of_mem_replicate zero]
      decide
    · have digits : (toString nextTag).toList = Nat.toDigits 10 nextTag := Nat.toList_repr
      rw [digits] at digit
      exact Nat.isDigit_of_mem_toDigits (by decide) (by decide) digit

theorem not_mem_tagText {c : Char} (nextTag : Nat) (noLetter : c ≠ 'A') (noDigit : c.isDigit = false) :
    c ∉ (tagText nextTag).toList := by
  obtain ⟨digits, shape, isDigit⟩ := tagText_toList nextTag
  rw [shape]
  intro member
  rcases List.mem_cons.mp member with letter | digit
  · exact noLetter letter
  · rw [isDigit c digit] at noDigit
    cases noDigit

namespace StatusLine
variable (line : StatusLine) (nextTag : Nat)

theorem chars_noFeed : '\n' ∉ line.chars nextTag := by
  have feed := line.noFeed
  have noTag := not_mem_tagText (c := '\n') nextTag (by decide) (by decide)
  simp only [chars, List.mem_append, List.mem_cons, not_or] at feed ⊢
  exact ⟨noTag, by decide, feed.1, by decide, feed.2⟩

theorem trimLineEnd_chars : trimLineEnd (line.chars nextTag) =
    (tagText nextTag).toList ++ ' ' :: (line.status ++ ' ' :: trimLineEnd line.text) := by
  have shape : line.chars nextTag =
      ((tagText nextTag).toList ++ ' ' :: line.status) ++ ' ' :: line.text := by
    simp [chars]
  rw [shape, trimLineEnd_append_cons _ (by decide)]
  simp

theorem readResponse_tagged (fuel : Nat) (untagged continuations : List String) (rest : Bytes) :
    readResponse (tagText nextTag) (fuel + 1) untagged continuations
        (lineBytes (line.chars nextTag) ++ rest) =
      .ok (⟨String.ofList (trimLineEnd (line.chars nextTag)), untagged, continuations⟩, rest) := by
  obtain ⟨digits, letter, -⟩ := tagText_toList nextTag
  have noContinuation : startsWith "+ " (trimLineEnd (line.chars nextTag)) = false := by
    rw [trimLineEnd_chars, letter]
    rfl
  have noUntagged : startsWith "* " (trimLineEnd (line.chars nextTag)) = false := by
    rw [trimLineEnd_chars, letter]
    rfl
  have tagged : startsWith (tagText nextTag) (trimLineEnd (line.chars nextTag)) = true := by
    unfold startsWith
    rw [trimLineEnd_chars, List.isPrefixOf_iff_prefix]
    exact List.prefix_append _ _
  rw [readResponse, readTextLine_line (line.chars_noFeed nextTag)]
  simp only [bind, Except.bind, String.toList_ofList, noContinuation, noUntagged, tagged, Bool.false_eq_true,
    ↓reduceIte]

theorem contains_ok_iff : containsText (trimLineEnd (line.chars nextTag)) " OK ".toList = true ↔
    line.status = ['O', 'K'] ∨ containsText (' ' :: line.text) " OK ".toList = true := by
  have pattern : " OK ".toList = [' ', 'O', 'K'] ++ [' '] := rfl
  unfold containsText
  rw [Slice.findOffset_infix_iff, Slice.findOffset_infix_iff, trimLineEnd_eq, pattern,
    Occurrences.infix_rdropWhile_iff (by decide)]
  have noTag := not_mem_tagText (c := ' ') nextTag (by decide) (by decide)
  change ' ' :: ['O', 'K', ' '] <:+: _ ↔ _ ∨ ' ' :: ['O', 'K', ' '] <:+: _
  rw [chars, Occurrences.infix_append_iff noTag, List.infix_cons_iff,
    Occurrences.infix_append_iff line.noSpace]
  refine or_congr ?_ Iff.rfl
  rw [List.cons_prefix_cons, and_iff_right rfl, eq_comm]
  exact Occurrences.prefix_separated_iff (a := ['O', 'K']) (by decide) line.noSpace line.text

end StatusLine

theorem ensureOk_isOk_iff (tagged : String) :
    (ensureOk tagged).isOk = true ↔ containsText tagged.toList " OK ".toList = true := by
  unfold ensureOk
  by_cases ok : containsText tagged.toList " OK ".toList = true
  · rw [if_pos ok]
    exact iff_of_true rfl ok
  · rw [if_neg ok]
    refine iff_of_false ?_ ok
    split
    · exact Bool.false_ne_true
    · split <;> exact Bool.false_ne_true

/-! ## Commands -/

def Client.receiving (client : Client) (incoming : Bytes) : Client := { client with incoming }

/-- The bytes of a response to the command that the client sends next. -/
def Client.answered (client : Client) (lines : List ResponseLine) (status : StatusLine) (rest : Bytes) :
    Client :=
  client.receiving (responseBytes lines ++ (lineBytes (status.chars client.nextTag) ++ rest))

def Client.after (client : Client) (text : String) (lines : List ResponseLine) (rest : Bytes) : Client :=
  { client.write text with
    incoming := rest, capabilities := updateCapabilities client.capabilities (untaggedLines lines) }

theorem sendCommand_answered (client : Client) (lines : List ResponseLine) (status : StatusLine)
    (rest : Bytes) (command : String) (args : List String) :
    sendCommand (client.answered lines status rest) command args =
      .ok (⟨String.ofList (trimLineEnd (status.chars client.nextTag)), untaggedLines lines,
          continuationLines lines⟩,
        client.after (commandLine (tagText client.nextTag) command args) lines rest) := by
  let incoming := responseBytes lines ++ (lineBytes (status.chars client.nextTag) ++ rest)
  have read : readResponse (tagText client.nextTag) (incoming.length + 1) [] [] incoming =
      .ok (⟨String.ofList (trimLineEnd (status.chars client.nextTag)), untaggedLines lines,
        continuationLines lines⟩, rest) := by
    have enough := length_le_responseBytes lines
    obtain ⟨fuel, isFuel⟩ : ∃ fuel, incoming.length + 1 = (fuel + 1) + lines.length :=
      ⟨incoming.length - lines.length, by
        have : lines.length ≤ incoming.length := by
          rw [List.length_append]
          omega
        omega⟩
    rw [isFuel, readResponse_lines, StatusLine.readResponse_tagged, List.nil_append, List.nil_append]
  unfold sendCommand
  change Except.bind (readResponse (tagText client.nextTag) (incoming.length + 1) [] [] incoming) _ = _
  rw [read]
  rfl

/-- The commands that ask for nothing but the status of the response. -/
inductive Call where
  | login (username password : String)
  | selectMailbox (mailbox : String)
  | uidStoreFlags (uid : Nat) (flags : List String)
  | expungeSelected
  | listMailboxes

def Call.succeeds (call : Call) (client : Client) : Bool :=
  match call with
  | login username password => (UpstreamClient.login client username password).isOk
  | selectMailbox mailbox => (UpstreamClient.selectMailbox client mailbox).isOk
  | uidStoreFlags uid flags => (UpstreamClient.uidStoreFlags client uid flags).isOk
  | expungeSelected => (UpstreamClient.expungeSelected client).isOk
  | listMailboxes => (UpstreamClient.listMailboxes client).isOk

theorem isOk_bind {α β : Type} {first : Except Failure α} {next : α → Except Failure β}
    (goesOn : ∀ value, (next value).isOk = true) : (first >>= next).isOk = first.isOk := by
  cases first with
  | ok value => exact goesOn value
  | error failure => rfl

theorem sendChecked_isOk (client : Client) (lines : List ResponseLine) (status : StatusLine)
    (rest : Bytes) (command : String) (args : List String) :
    (sendChecked (client.answered lines status rest) command args).isOk =
      (ensureOk (String.ofList (trimLineEnd (status.chars client.nextTag)))).isOk := by
  unfold sendChecked
  rw [sendCommand_answered]
  generalize String.ofList (trimLineEnd (status.chars client.nextTag)) = tagged
  simp only [bind, Except.bind]
  cases ensureOk tagged <;> rfl

/-! ### Reading a response to SELECT -/

theorem extractBracketedResponseCode_ok (line code : String) :
    ∃ value, extractBracketedResponseCode line code = .ok value := by
  unfold extractBracketedResponseCode
  generalize "[" ++ code ++ " " = marker
  cases found : Slice.findOffset (startsWith marker) line.toList with
  | none => exact ⟨none, by simp only [found]; rfl⟩
  | some index =>
      obtain ⟨before, after, split, rfl, starts⟩ := Slice.findOffset_eq_some found
      unfold startsWith at starts
      obtain ⟨rest, rfl⟩ := List.isPrefixOf_iff_prefix.mp starts
      have start : Slice.byteLength before + Slice.byteLength marker.toList =
          Slice.byteLength (before ++ marker.toList) := (Slice.byteLength_append ..).symm
      have onwards : textFrom line.toList (Slice.byteLength (before ++ marker.toList)) = .ok rest := by
        rw [textFrom, split, ← List.append_assoc, Slice.dropBytes_append]
        rfl
      simp only [found, start, onwards]
      cases closing : Slice.findOffset (fun rest => rest.head? == some ']') rest with
      | none => exact ⟨none, by simp only [bind, Except.bind, closing]; rfl⟩
      | some length =>
          obtain ⟨value, others, rfl, rfl, -⟩ := Slice.findOffset_eq_some closing
          have stop : Slice.byteLength value + Slice.byteLength (before ++ marker.toList) =
              Slice.byteLength (before ++ marker.toList ++ value) := by
            rw [Slice.byteLength_append _ value]
            omega
          have between : textBetween line.toList (Slice.byteLength (before ++ marker.toList))
              (Slice.byteLength (before ++ marker.toList ++ value)) = .ok value := by
            rw [textBetween, split, ← List.append_assoc, ← List.append_assoc, Slice.slice_append]
            rfl
          refine ⟨some (trim value), ?_⟩
          simp only [bind, Except.bind, closing, stop, between]
          rfl

theorem readCodes_ok (info : SelectedMailboxInfo) (line : String)
    (codes : List (String × (SelectedMailboxInfo → Option Int → SelectedMailboxInfo))) :
    ∃ info', readCodes info line codes = .ok info' := by
  induction codes with
  | nil => exact ⟨_, rfl⟩
  | cons code codes ih =>
      obtain ⟨code, fill⟩ := code
      obtain ⟨value, extracted⟩ := extractBracketedResponseCode_ok line code
      rw [readCodes, extracted]
      cases value with
      | none => exact ih
      | some value => exact ⟨_, rfl⟩

theorem readSelectLine_ok (info : SelectedMailboxInfo) (line : String) :
    ∃ info', readSelectLine info line = .ok info' := by
  unfold readSelectLine
  split
  · exact ⟨_, rfl⟩
  · dsimp only
    split
    · exact ⟨_, rfl⟩
    · exact ⟨_, rfl⟩
    · exact readCodes_ok info line selectCodes

theorem readSelectLines_ok (info : SelectedMailboxInfo) (lines : List String) :
    ∃ info', lines.foldlM readSelectLine info = .ok info' := by
  induction lines generalizing info with
  | nil => exact ⟨info, rfl⟩
  | cons line lines ih =>
      obtain ⟨next, read⟩ := readSelectLine_ok info line
      obtain ⟨last, others⟩ := ih next
      exact ⟨last, by rw [List.foldlM_cons, read]; exact others⟩

/-! ### The answers -/

theorem succeeds_eq (call : Call) (client : Client) (lines : List ResponseLine) (status : StatusLine)
    (rest : Bytes) : call.succeeds (client.answered lines status rest) =
      (ensureOk (String.ofList (trimLineEnd (status.chars client.nextTag)))).isOk := by
  cases call with
  | login username password =>
      refine Eq.trans ?_ (sendChecked_isOk client lines status rest "LOGIN" [quote username, quote password])
      exact isOk_bind fun _ => rfl
  | selectMailbox mailbox =>
      obtain ⟨info, read⟩ := readSelectLines_ok ⟨[], none, none, none, none, none, none, false⟩
        (untaggedLines lines)
      change (UpstreamClient.selectMailbox _ mailbox).isOk = _
      unfold UpstreamClient.selectMailbox
      rw [sendCommand_answered]
      generalize String.ofList (trimLineEnd (status.chars client.nextTag)) = tagged
      simp only [bind, Except.bind, read, orPanics]
      cases ensureOk tagged <;> rfl
  | uidStoreFlags uid flags =>
      refine Eq.trans ?_ (sendChecked_isOk client lines status rest "UID"
        ["STORE", toString uid, "FLAGS.SILENT", "(" ++ Responses.join flags ++ ")"])
      exact isOk_bind fun _ => rfl
  | expungeSelected =>
      refine Eq.trans ?_ (sendChecked_isOk client lines status rest "EXPUNGE" [])
      exact isOk_bind fun _ => rfl
  | listMailboxes =>
      refine Eq.trans ?_ (sendChecked_isOk client lines status rest "LIST" [quote "", quote "*"])
      exact isOk_bind fun _ => rfl

theorem status_read_iff (call : Call) (client : Client) (lines : List ResponseLine) (status : StatusLine)
    (rest : Bytes) :
    (call.succeeds (client.answered lines status rest) = true ↔ status.status = "OK".toList) ↔
      (status.status = "OK".toList ∨ containsText (' ' :: status.text) " OK ".toList = false) := by
  rw [succeeds_eq, ensureOk_isOk_iff, String.toList_ofList, StatusLine.contains_ok_iff]
  change ((status.status = "OK".toList ∨ _) ↔ _) ↔ _
  by_cases ok : status.status = "OK".toList
  · simp [ok]
  · cases containsText (' ' :: status.text) " OK ".toList <;> simp

/-- A refusal that names the mailbox `Sent OK mails` in its text. -/
def refusal : StatusLine where
  status := "NO".toList
  text := "no mailbox Sent OK mails".toList
  noSpace := by decide
  noFeed := by decide

theorem refusal_taken_for_success :
    Call.expungeSelected.succeeds (Client.answered ⟨1, [], [], []⟩ [] refusal []) = true ∧
      refusal.status ≠ "OK".toList := by
  decide +kernel

end ImapCache.UpstreamClient
