import ImapCache.Proof.ListedNames
import ImapCache.Proof.UpstreamStatus

/-!
# The round trip of quoted arguments

The upstream client writes its arguments in quotes, and the parser of the server takes the quotes off
again: whatever an argument has in it, it is one token. The client's own reader of quoted names undoes the
quoting too.
-/

namespace ImapCache.UpstreamClient
open Protocol UpstreamLines
open CommandStream (escaped tokens tokens_word tokens_space tokens_args crlf)

/-- A tag or the name of a command. -/
structure BareWord where
  text : List Char
  nonempty : text ≠ []
  plain : ∀ c ∈ text, isWhitespace c = false ∧ c ∉ ['"', '(', ')', '[', ']']

namespace BareWord

theorem wordChars (word : BareWord) : ∀ c ∈ word.text, CommandStream.isWordChar c = true := by
  intro c member
  obtain ⟨visible, plain⟩ := word.plain c member
  simp only [List.mem_cons, List.not_mem_nil, or_false, not_or] at plain
  simp [CommandStream.isWordChar, visible, plain]

theorem not_mem (word : BareWord) {c : Char} (special : c ∈ ['"', '(', ')', '[', ']']) : c ∉ word.text :=
  fun member => (word.plain c member).2 special

theorem token (word : BareWord) (line : List Char) {rest : List Char}
    (ends : rest = [] ∨ ∃ after, rest = ' ' :: after) :
    tokens line (word.text ++ rest) = (tokens line rest).map (String.ofList word.text :: ·) := by
  refine tokens_word line word.nonempty word.wordChars (word.not_mem (by decide)) ?_
  rw [List.count_eq_zero_of_not_mem (word.not_mem (by decide))]
  rcases ends with rfl | ⟨after, rfl⟩ <;> rfl

end BareWord

/-- The arguments as they follow the name of a command. -/
def quotedArgs (args : List String) : List Char :=
  args.flatMap fun arg => ' ' :: (Responses.quoteImapString arg).toList

theorem foldl_args (args : List String) (line : String) :
    ((args.map quote).foldl (fun line arg => line ++ " " ++ arg) line).toList =
      line.toList ++ quotedArgs args := by
  induction args generalizing line with
  | nil => simp [quotedArgs]
  | cons arg args ih =>
      rw [List.map_cons, List.foldl_cons, ih, quotedArgs, quotedArgs, List.flatMap_cons]
      simp [String.toList_append, quote, Responses.quoteImapString]

def quotedLine (tag name : BareWord) (args : List String) : List Char :=
  tag.text ++ ' ' :: (name.text ++ quotedArgs args)

theorem commandLine_toList (tag name : BareWord) (args : List String) :
    (commandLine (String.ofList tag.text) (String.ofList name.text) (args.map quote)).toList =
      quotedLine tag name args ++ crlf := by
  unfold commandLine
  rw [String.toList_append, foldl_args]
  simp [quotedLine, String.toList_append, crlf]

theorem tokens_quotedLine (line : List Char) (tag name : BareWord) (args : List String) :
    tokens line (quotedLine tag name args) =
      .ok (String.ofList tag.text :: String.ofList name.text :: args) := by
  have ends : quotedArgs args = [] ∨ ∃ after, quotedArgs args = ' ' :: after := by
    cases args with
    | nil => exact .inl rfl
    | cons arg args => exact .inr ⟨_, rfl⟩
  have read := tokens_args line args []
  rw [List.append_nil] at read
  change tokens line (quotedArgs args) = _ at read
  rw [quotedLine, tag.token line (.inr ⟨_, rfl⟩), tokens_space line _ (by decide), name.token line ends, read]
  change (((Except.ok []).map (args ++ ·)).map _).map _ = Except.ok _
  simp [Except.map]

theorem trimLineEnd_quotedLine (tag name : BareWord) (args : List String) :
    trimLineEnd (quotedLine tag name args) = quotedLine tag name args := by
  have ends : ∃ before last, quotedLine tag name args = before ++ [last] ∧ isLineBreak last = false := by
    rcases List.eq_nil_or_concat args with rfl | ⟨others, arg, rfl⟩
    · obtain ⟨before, last, shape⟩ := List.eq_nil_or_concat name.text |>.resolve_left name.nonempty
      have visible := (name.plain last (by rw [shape]; simp)).1
      exact ⟨tag.text ++ ' ' :: before, last, by simp [quotedLine, quotedArgs, shape],
        isLineBreak_of_visible visible⟩
    · refine ⟨tag.text ++ ' ' :: (name.text ++ (quotedArgs others ++
        ' ' :: '"' :: arg.toList.flatMap escaped)), '"', ?_, by decide⟩
      simp [quotedLine, quotedArgs, CommandStream.quoteImapString_toList]
  obtain ⟨before, last, shape, stays⟩ := ends
  rw [shape, trimLineEnd_append_cons before stays]
  rfl

theorem parseCommand_of_tokens {text tag name : String} {line : List Char} {args : List String}
    (shape : trimLineEnd text.toList = line) (nonempty : line ≠ [])
    (read : tokens line line = .ok (tag :: name :: args)) :
    parseCommand text = .ok (some ⟨tag, name, args⟩) := by
  have notEmpty : line.isEmpty = false := by simpa using nonempty
  unfold parseCommand
  rw [shape]
  simp only [notEmpty, Bool.false_eq_true, ↓reduceIte]
  change (tokens line line).bind _ = _
  rw [read]
  rfl

theorem parseCommand_of_line {text : String} {tag name : BareWord} {args : List String}
    (shape : trimLineEnd text.toList = quotedLine tag name args) :
    parseCommand text = .ok (some ⟨String.ofList tag.text, String.ofList name.text, args⟩) :=
  parseCommand_of_tokens shape (by simp [quotedLine]) (tokens_quotedLine _ tag name args)

theorem quoted_command_read_back (tag name : BareWord) (args : List String) :
    parseCommand (String.ofList (quotedLine tag name args)) =
        .ok (some ⟨String.ofList tag.text, String.ofList name.text, args⟩) ∧
      parseCommand (commandLine (String.ofList tag.text) (String.ofList name.text) (args.map quote)) =
        .ok (some ⟨String.ofList tag.text, String.ofList name.text, args⟩) ∧
      ∀ value, unquote (quote value).toList = value := by
  refine ⟨parseCommand_of_line ?_, parseCommand_of_line ?_, fun value => ?_⟩
  · rw [String.toList_ofList, trimLineEnd_quotedLine]
  · rw [commandLine_toList, trimLineEnd_crlf, trimLineEnd_quotedLine]
  · have text : (quote value).toList = ListedNames.quotedName value :=
      CommandStream.quoteImapString_toList value
    rw [text, ListedNames.unquote_quotedName]

end ImapCache.UpstreamClient
