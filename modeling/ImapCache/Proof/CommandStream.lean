import Mathlib.Algebra.GroupWithZero.Nat
import ImapCache.Model.Connection
import ImapCache.Proof.WhiteSpace

/-!
# The stream of commands

A client sends its commands a line each, with the arguments in quotes and the body of a literal after
the line that announces it, and the loop of a connection reads them. Whether a body follows is read
off the last argument when its quotes are gone, and a bracket in a tag or a name hides the spaces after
it, so the commands come through as they were sent exactly if neither misleads.
-/

namespace ImapCache.CommandStream
open Lib Prog Protocol Session

/-! ## Commands as they are sent -/

def isAtomChar (c : Char) : Bool :=
  0x20 < c.toNat && c.toNat < 0x7F && !(['(', ')', '\x7b', '%', '*', '"', '\\', ']'].contains c)

structure Atom where
  text : List Char
  nonempty : text ≠ []
  chars : ∀ c ∈ text, isAtomChar c = true

structure Literal where
  nonSync : Bool
  body : Bytes

structure SentCommand where
  tag : Atom
  name : Atom
  args : List String
  noBreaks : ∀ arg ∈ args, '\r' ∉ arg.toList ∧ '\n' ∉ arg.toList
  literal : Option Literal

def crlf : List Char := ['\r', '\n']

def Literal.marker (literal : Literal) : List Char :=
  '\x7b' :: ((toString literal.body.length).toList ++
    ((if literal.nonSync then ['+'] else []) ++ ['\x7d']))

namespace SentCommand

def sentArgs (command : SentCommand) : List Char :=
  command.args.flatMap fun arg => ' ' :: (Responses.quoteImapString arg).toList

def sentMarker (command : SentCommand) : List Char :=
  match command.literal with
  | none => []
  | some literal => ' ' :: literal.marker

def line (command : SentCommand) : List Char :=
  command.tag.text ++ ' ' :: (command.name.text ++ (command.sentArgs ++ command.sentMarker))

def body (command : SentCommand) : Bytes :=
  match command.literal with
  | none => []
  | some literal => literal.body ++ Mutations.utf8 (String.ofList crlf)

def bytes (command : SentCommand) : Bytes :=
  Mutations.utf8 (String.ofList (command.line ++ crlf)) ++ command.body

/-- The line, and the empty line that ends a literal. -/
def rounds (command : SentCommand) : Nat := if command.literal.isSome then 2 else 1

def received (command : SentCommand) : ParsedCommand × Option Bytes :=
  (⟨String.ofList command.tag.text, String.ofList command.name.text,
      command.args ++ (command.literal.map fun literal => String.ofList literal.marker).toList⟩,
    command.literal.map (·.body))

/-- The commands that nothing misleads the reader about: a bracket is only at the end of a line, the
last argument of a command without a literal announces none, and a literal can be held in memory. -/
def Framed (command : SentCommand) : Prop :=
  '[' ∉ command.tag.text ∧
    ('[' ∈ command.name.text → command.args = [] ∧ command.literal = none) ∧
    match command.literal with
    | none => ∀ arg, command.args.getLast? = some arg → parseLiteralMarker arg = .ok none
    | some literal => literal.body.length ≤ maxAllocation

end SentCommand

def serialise (commands : List SentCommand) : Bytes := commands.flatMap SentCommand.bytes

def roundsOf (commands : List SentCommand) : Nat := (commands.map SentCommand.rounds).sum

/-! ## Lines -/

theorem fromUtf8_utf8 (text : String) : fromUtf8 (Mutations.utf8 text) = some text := by
  have whole : (⟨(Mutations.utf8 text).toArray⟩ : ByteArray) = text.toByteArray := by
    simp [Mutations.utf8]
  unfold fromUtf8 String.fromUTF8?
  rw [whole, dif_pos text.isValidUTF8]
  rfl

theorem utf8_append (a b : String) :
    Mutations.utf8 (a ++ b) = Mutations.utf8 a ++ Mutations.utf8 b := by
  simp [Mutations.utf8, String.toByteArray_append]

theorem utf8_cons (c : Char) (text : List Char) :
    Mutations.utf8 (String.ofList (c :: text)) =
      String.utf8EncodeChar c ++ Mutations.utf8 (String.ofList text) := by
  simp only [Mutations.utf8, String.toByteArray_ofList]
  rw [List.utf8Encode_cons]
  simp [List.utf8Encode_singleton]

theorem lineFeed_ne_ofNat {n : Nat} (other : n ≠ 10) (bound : n < 256) :
    (0x0A : UInt8) ≠ UInt8.ofNat n := by
  intro eq
  have value : 10 = n % 256 := by simpa using congrArg UInt8.toNat eq
  omega

theorem lineFeed_not_mem_utf8EncodeChar {c : Char} (other : c ≠ '\n') :
    (0x0A : UInt8) ∉ String.utf8EncodeChar c := by
  have value : c.val.toNat ≠ 10 := fun eq => other (Char.ext (UInt32.toNat_inj.mp eq))
  intro member
  unfold String.utf8EncodeChar at member
  dsimp only at member
  split at member
  · exact lineFeed_ne_ofNat value (by omega) (List.mem_singleton.mp member)
  · -- every byte of a longer character has its first bit set
    have high : ∀ n, 128 ≤ n → n < 256 → (0x0A : UInt8) ≠ UInt8.ofNat n := fun n lower upper =>
      lineFeed_ne_ofNat (by omega) upper
    split at member
    · simp only [List.mem_cons, List.not_mem_nil, or_false] at member
      rcases member with eq | eq <;> exact high _ (by omega) (by omega) eq
    · split at member <;> simp only [List.mem_cons, List.not_mem_nil, or_false] at member
      · rcases member with eq | eq | eq <;> exact high _ (by omega) (by omega) eq
      · rcases member with eq | eq | eq | eq <;> exact high _ (by omega) (by omega) eq

theorem lineFeed_not_mem_utf8 {text : List Char} (noFeed : '\n' ∉ text) :
    (0x0A : UInt8) ∉ Mutations.utf8 (String.ofList text) := by
  induction text with
  | nil => exact List.not_mem_nil
  | cons c text ih =>
      rw [utf8_cons, List.mem_append]
      rintro (member | member)
      · exact lineFeed_not_mem_utf8EncodeChar
          (fun eq => noFeed (eq ▸ List.mem_cons_self ..)) member
      · exact ih (fun member => noFeed (List.mem_cons_of_mem _ member)) member

theorem readLine_append {line : Bytes} (noFeed : (0x0A : UInt8) ∉ line) (rest : Bytes) :
    readLine (line ++ 0x0A :: rest) = (line ++ [0x0A], rest) := by
  induction line with
  | nil => rfl
  | cons byte line ih =>
      have other : byte ≠ 0x0A := fun eq => noFeed (eq ▸ List.mem_cons_self ..)
      have tail := ih fun member => noFeed (List.mem_cons_of_mem _ member)
      rw [List.cons_append, readLine, if_neg other, tail]
      rfl

/-- A round takes a whole line, and then as many bytes as the literal of its command has. -/
theorem readRound_line {text : List Char} (noFeed : '\n' ∉ text) (rest : Bytes) :
    readRound (Mutations.utf8 (String.ofList (text ++ crlf)) ++ rest) =
      (readCommandWithLiteral (String.ofList (text ++ crlf)) rest).bind fun command =>
        .ret (some (command, rest.drop ((command.bind (·.2)).getD []).length)) := by
  have split : Mutations.utf8 (String.ofList (text ++ crlf)) =
      Mutations.utf8 (String.ofList (text ++ ['\r'])) ++ [0x0A] := by
    rw [show text ++ crlf = (text ++ ['\r']) ++ ['\n'] by simp [crlf], String.ofList_append,
      utf8_append]
    rfl
  have line : readLine (Mutations.utf8 (String.ofList (text ++ crlf)) ++ rest) =
      (Mutations.utf8 (String.ofList (text ++ crlf)), rest) := by
    rw [split, List.append_assoc]
    exact readLine_append (lineFeed_not_mem_utf8 (by simp [noFeed])) rest
  have nonempty : (Mutations.utf8 (String.ofList (text ++ crlf))).isEmpty = false := by
    rw [split]
    simp
  unfold readRound
  rw [line]
  simp only [nonempty, Bool.false_eq_true, ↓reduceIte, fromUtf8_utf8]
  rfl

theorem trimLineEnd_append {text : List Char} (noReturn : '\r' ∉ text) (noFeed : '\n' ∉ text) :
    trimLineEnd (text ++ crlf) = text := by
  have kept : text.reverse.dropWhile (fun c => c == '\r' || c == '\n') = text.reverse := by
    cases eq : text.reverse with
    | nil => rfl
    | cons c rest =>
        have member : c ∈ text := by
          rw [← List.mem_reverse, eq]
          exact List.mem_cons_self ..
        have other : (c == '\r' || c == '\n') = false := by
          simp only [Bool.or_eq_false_iff, beq_eq_false_iff_ne]
          exact ⟨fun eq => noReturn (eq ▸ member), fun eq => noFeed (eq ▸ member)⟩
        rw [List.dropWhile_cons, other]
        rfl
  unfold trimLineEnd
  rw [List.reverse_append, show crlf.reverse = ['\n', '\r'] from rfl]
  change (text.reverse.dropWhile _).reverse = text
  rw [kept, List.reverse_reverse]

/-! ## Tokens -/

theorem quotedToken_length (text : List Char) : (quotedToken text).2.length ≤ text.length := by
  fun_induction quotedToken text <;> simp_all <;> omega

theorem bareToken_length (parens brackets : Nat) (text : List Char) :
    (bareToken parens brackets text).2.length ≤ text.length := by
  fun_induction bareToken parens brackets text <;> simp_all
  omega

theorem bareToken_cons {c : Char} (rest : List Char) (visible : isWhitespace c = false) :
    bareToken 0 0 (c :: rest) =
      (c :: (bareToken (depthAfter '(' ')' 0 c) (depthAfter '[' ']' 0 c) rest).1,
        (bareToken (depthAfter '(' ')' 0 c) (depthAfter '[' ']' 0 c) rest).2) := by
  rw [bareToken]
  simp [visible]

theorem tokenizeWith_fuel (line : List Char) {fuel fuel' : Nat} {text : List Char}
    (enough : text.length ≤ fuel) (enough' : text.length ≤ fuel') :
    tokenizeWith line fuel text = tokenizeWith line fuel' text := by
  induction fuel generalizing text fuel' with
  | zero =>
      obtain rfl := List.length_eq_zero_iff.mp (Nat.le_zero.mp enough)
      cases fuel' <;> rfl
  | succ fuel ih =>
      cases text with
      | nil => cases fuel' <;> rfl
      | cons c rest =>
          obtain ⟨fuel', rfl⟩ : ∃ n, fuel' = n + 1 := ⟨fuel' - 1, by simp at enough'; omega⟩
          simp only [List.length_cons, Nat.add_le_add_iff_right] at enough enough'
          have quoted := quotedToken_length rest
          rw [tokenizeWith, tokenizeWith]
          by_cases space : isWhitespace c = true
          · simp only [space, ↓reduceIte]
            exact ih enough enough'
          · simp only [space, Bool.false_eq_true, ↓reduceIte]
            split
            · rw [ih (quoted.trans enough) (quoted.trans enough')]
            · have bare := bareToken_length (depthAfter '(' ')' 0 c) (depthAfter '[' ']' 0 c) rest
              rw [bareToken_cons rest (by simpa using space)]
              dsimp only
              rw [ih (bare.trans enough) (bare.trans enough')]

def tokens (line text : List Char) : Except Error (List String) := tokenizeWith line text.length text

theorem tokens_space (line : List Char) {c : Char} (rest : List Char)
    (space : isWhitespace c = true) : tokens line (c :: rest) = tokens line rest := by
  unfold tokens
  rw [List.length_cons, tokenizeWith]
  simp only [space, ↓reduceIte]

theorem tokens_quoted (line rest : List Char) :
    tokens line ('"' :: rest) =
      (tokens line (quotedToken rest).2).map (String.ofList (quotedToken rest).1 :: ·) := by
  have shorter := quotedToken_length rest
  have visible : isWhitespace '"' = false := by decide
  unfold tokens
  rw [List.length_cons, tokenizeWith]
  simp only [visible, Bool.false_eq_true, ↓reduceIte]
  rw [tokenizeWith_fuel line shorter (le_refl _)]
  rfl

theorem tokens_bare (line : List Char) {c : Char} (rest : List Char)
    (visible : isWhitespace c = false) (unquoted : c ≠ '"') :
    tokens line (c :: rest) = (tokens line (bareToken 0 0 (c :: rest)).2).map
      (String.ofList (bareToken 0 0 (c :: rest)).1 :: ·) := by
  have shorter := bareToken_length (depthAfter '(' ')' 0 c) (depthAfter '[' ']' 0 c) rest
  unfold tokens
  rw [List.length_cons, tokenizeWith, bareToken_cons rest visible]
  dsimp only
  rw [tokenizeWith_fuel line shorter (le_refl _)]
  simp only [visible, unquoted, Bool.false_eq_true, ↓reduceIte, List.isEmpty_cons]
  rfl

/-! ## Quoted arguments -/

/-- A quote or a backslash has a backslash before it. -/
def escaped (c : Char) : List Char :=
  if c = '\\' then ['\\', '\\'] else if c = '"' then ['\\', '"'] else [c]

theorem quoteImapString_toList (arg : String) :
    (Responses.quoteImapString arg).toList = '"' :: (arg.toList.flatMap escaped ++ ['"']) := by
  have twice : ∀ c : Char, (if c = '\\' then ['\\', '\\'] else [c]).flatMap
      (fun c => if c = '"' then ['\\', '"'] else [c]) = escaped c := by
    intro c
    unfold escaped
    split
    · rfl
    · simp
  unfold Responses.quoteImapString Responses.replaceChar
  simp only [String.toList_append, String.toList_ofList, List.flatMap_assoc, twice]
  rfl

theorem quotedToken_escaped (text rest : List Char) :
    quotedToken (text.flatMap escaped ++ '"' :: rest) = (text, rest) := by
  induction text with
  | nil => rfl
  | cons c text ih =>
      rw [List.flatMap_cons, List.append_assoc]
      by_cases backslash : c = '\\'
      · subst backslash
        change quotedToken ('\\' :: '\\' :: (text.flatMap escaped ++ '"' :: rest)) = _
        rw [quotedToken, ih]
      · by_cases quote : c = '"'
        · subst quote
          change quotedToken ('\\' :: '"' :: (text.flatMap escaped ++ '"' :: rest)) = _
          rw [quotedToken, ih]
        · rw [escaped, if_neg backslash, if_neg quote, List.singleton_append, quotedToken, ih]
          all_goals simp_all

theorem tokens_args (line : List Char) (args : List String) (rest : List Char) :
    tokens line (args.flatMap (fun arg => ' ' :: (Responses.quoteImapString arg).toList) ++ rest) =
      (tokens line rest).map (args ++ ·) := by
  induction args with
  | nil =>
      change tokens line rest = (tokens line rest).map id
      cases tokens line rest <;> rfl
  | cons arg args ih =>
      rw [List.flatMap_cons, List.append_assoc, List.cons_append,
        tokens_space line _ (by decide), quoteImapString_toList, List.cons_append, tokens_quoted,
        List.append_assoc, List.singleton_append, quotedToken_escaped, ih, String.ofList_toList]
      cases tokens line rest <;> rfl

/-! ## Words -/

/-- The characters that neither end a token nor close a depth. -/
def isWordChar (c : Char) : Bool :=
  !isWhitespace c && c != '(' && c != ')' && c != ']'

theorem visible_of_isWordChar {c : Char} (char : isWordChar c = true) : isWhitespace c = false := by
  simp only [isWordChar, Bool.and_eq_true, Bool.not_eq_eq_eq_not, Bool.not_true] at char
  exact char.1.1.1

theorem bareToken_word {word : List Char} (plain : ∀ c ∈ word, isWordChar c = true)
    (brackets : Nat) (rest : List Char) :
    bareToken 0 brackets (word ++ rest) =
      (word ++ (bareToken 0 (brackets + word.count '[') rest).1,
        (bareToken 0 (brackets + word.count '[') rest).2) := by
  induction word generalizing brackets with
  | nil => rfl
  | cons c word ih =>
      have char := plain c (List.mem_cons_self ..)
      simp only [isWordChar, Bool.and_eq_true, Bool.not_eq_eq_eq_not, Bool.not_true, bne_iff_ne,
        ne_eq] at char
      obtain ⟨⟨⟨visible, opening⟩, closing⟩, bracket⟩ := char
      have depth : brackets + (c :: word).count '[' =
          depthAfter '[' ']' brackets c + word.count '[' := by
        by_cases opens : c = '['
        · subst opens
          rw [List.count_cons_self]
          simp only [depthAfter, ↓reduceIte]
          omega
        · rw [List.count_cons_of_ne opens, depthAfter, if_neg opens, if_neg bracket]
      have parens : depthAfter '(' ')' 0 c = 0 := by
        rw [depthAfter, if_neg opening, if_neg closing]
      rw [List.cons_append, bareToken, visible, parens,
        ih (fun c member => plain c (List.mem_cons_of_mem _ member)), depth]
      rfl

theorem tokens_word (line : List Char) {word rest : List Char} (nonempty : word ≠ [])
    (plain : ∀ c ∈ word, isWordChar c = true) (unquoted : '"' ∉ word)
    (ends : bareToken 0 (word.count '[') rest = ([], rest)) :
    tokens line (word ++ rest) = (tokens line rest).map (String.ofList word :: ·) := by
  obtain ⟨c, chars, rfl⟩ := List.exists_cons_of_ne_nil nonempty
  have visible := visible_of_isWordChar (plain c (List.mem_cons_self ..))
  have token := bareToken_word plain 0 rest
  rw [Nat.zero_add, ends, List.append_nil, List.cons_append] at token
  rw [List.cons_append, tokens_bare line (chars ++ rest) visible
    (fun eq => unquoted (eq ▸ List.mem_cons_self ..)), token]

theorem tokens_bracket (line : List Char) {word rest : List Char}
    (plain : ∀ c ∈ word, isWordChar c = true) (unquoted : '"' ∉ word) (bracket : '[' ∈ word)
    {found : List String} (tokenized : tokens line (word ++ ' ' :: rest) = .ok found) :
    found.head? ≠ some (String.ofList word) := by
  obtain ⟨c, chars, rfl⟩ := List.exists_cons_of_ne_nil (List.ne_nil_of_mem bracket)
  have visible := visible_of_isWordChar (plain c (List.mem_cons_self ..))
  obtain ⟨depth, deep⟩ : ∃ depth, (c :: chars).count '[' = depth + 1 :=
    ⟨_, (Nat.succ_pred_eq_of_pos (List.count_pos_iff.mpr bracket)).symm⟩
  have token := bareToken_word plain 0 (' ' :: rest)
  rw [Nat.zero_add, deep, bareToken] at token
  simp only [Nat.add_eq_zero_iff, one_ne_zero, and_false, beq_iff_eq, Bool.and_eq_true,
    ↓reduceIte] at token
  rw [List.cons_append, tokens_bare line (chars ++ ' ' :: rest) visible
    (fun eq => unquoted (eq ▸ List.mem_cons_self ..)), ← List.cons_append, token] at tokenized
  cases outcome : tokens line _ with
  | error failure =>
      rw [outcome] at tokenized
      cases tokenized
  | ok after =>
      rw [outcome] at tokenized
      cases tokenized
      intro eq
      have same := String.ofList_injective (Option.some.inj eq)
      have lengths := congrArg List.length same
      simp at lengths

theorem Atom.plain (atom : Atom) : ∀ c ∈ atom.text, isWordChar c = true := by
  intro c member
  have char := atom.chars c member
  simp only [isAtomChar, Bool.and_eq_true, decide_eq_true_eq, List.contains_cons,
    List.contains_nil, Bool.not_eq_eq_eq_not, Bool.not_true, Bool.or_eq_false_iff,
    beq_eq_false_iff_ne] at char
  obtain ⟨⟨lower, upper⟩, opening, closing, -, -, -, -, -, bracket, -⟩ := char
  have visible : isWhitespace c = false := by
    simp [isWhitespace]
    omega
  simp [isWordChar, visible, opening, closing, bracket]

theorem Atom.unquoted (atom : Atom) : '"' ∉ atom.text := by
  intro member
  exact absurd (atom.chars _ member) (by decide)

/-! ## Markers -/

theorem parseU64_toString (n : Nat) :
    parseU64 (toString n).toList = if n < 18446744073709551616 then some n else none := by
  have digits : (toString n).toList = Nat.toDigits 10 n := Nat.toList_repr
  have allDigits : ∀ c ∈ Nat.toDigits 10 n, c.isDigit = true := fun c member =>
    Nat.isDigit_of_mem_toDigits (by decide) (by decide) member
  have value : (Nat.toDigits 10 n).foldl (fun n c => 10 * n + (c.toNat - '0'.toNat)) 0 = n :=
    Nat.ofDigitChars_ten_toDigits
  have wellFormed : ((Nat.toDigits 10 n).isEmpty || (Nat.toDigits 10 n).any (!·.isDigit)) = false := by
    simpa [Nat.toDigits_ne_nil] using allDigits
  unfold parseU64
  rw [digits]
  dsimp only
  split
  · rename_i rest eq
    exact absurd (allDigits '+' (eq ▸ List.mem_cons_self ..)) (by decide)
  · rw [wellFormed, value]
    rfl

def Literal.inner (literal : Literal) : List Char :=
  (toString literal.body.length).toList ++ if literal.nonSync then ['+'] else []

theorem Literal.marker_eq (literal : Literal) :
    literal.marker = ['\x7b'] ++ literal.inner ++ ['\x7d'] := by
  simp [marker, inner]

theorem Literal.inner_getLast (literal : Literal) :
    literal.inner.getLast? = some '+' ↔ literal.nonSync = true := by
  unfold inner
  cases literal.nonSync with
  | true => simp
  | false =>
      have digits : (toString literal.body.length).toList = Nat.toDigits 10 literal.body.length :=
        Nat.toList_repr
      simp only [Bool.false_eq_true, ↓reduceIte, List.append_nil, iff_false]
      intro last
      have member := List.mem_of_getLast? last
      rw [digits] at member
      exact absurd (Nat.isDigit_of_mem_toDigits (by decide) (by decide) member) (by decide)

theorem Literal.parse_marker (literal : Literal) :
    parseLiteralMarker (String.ofList literal.marker) =
      .ok (if literal.body.length < 18446744073709551616 then
        some (literal.body.length, literal.nonSync) else none) := by
  have between : textBetween (['\x7b'] ++ literal.inner ++ ['\x7d']) 1
      (Slice.byteLength (['\x7b'] ++ literal.inner ++ ['\x7d']) - 1) = .ok literal.inner := by
    have whole := Slice.slice_append ['\x7b'] literal.inner ['\x7d']
    have last : Slice.byteLength (['\x7b'] ++ literal.inner ++ ['\x7d']) - 1 =
        Slice.byteLength (['\x7b'] ++ literal.inner) := by
      rw [Slice.byteLength_append, show Slice.byteLength ['\x7d'] = 1 from rfl]
      omega
    rw [textBetween, last, show (1 : Nat) = Slice.byteLength ['\x7b'] from rfl, whole]
    rfl
  have upTo : (if literal.nonSync = true then
      textUpTo literal.inner (Slice.byteLength literal.inner - 1) else pure literal.inner) =
      .ok (toString literal.body.length).toList := by
    unfold inner
    cases literal.nonSync with
    | false =>
        simp only [Bool.false_eq_true, ↓reduceIte, List.append_nil]
        rfl
    | true =>
        have digits := Slice.takeBytes_append (toString literal.body.length).toList ['+']
        have last : Slice.byteLength ((toString literal.body.length).toList ++ ['+']) - 1 =
            Slice.byteLength (toString literal.body.length).toList := by
          rw [Slice.byteLength_append, show Slice.byteLength ['+'] = 1 from rfl]
          omega
        simp only [↓reduceIte]
        rw [textUpTo, last, digits]
        rfl
  unfold parseLiteralMarker
  have trimmed : trim (['\x7b'] ++ literal.inner ++ ['\x7d']) = ['\x7b'] ++ literal.inner ++ ['\x7d'] :=
    trim_between literal.inner (by decide) (by decide)
  rw [String.toList_ofList, literal.marker_eq, trimmed]
  have braces : (['\x7b'] ++ literal.inner ++ ['\x7d']).head? = some '\x7b' ∧
      (['\x7b'] ++ literal.inner ++ ['\x7d']).getLast? = some '\x7d' :=
    ⟨by rw [List.append_assoc]; rfl, List.getLast?_concat ..⟩
  have read : (parseU64 (toString literal.body.length).toList).map
      (fun length => (length, literal.nonSync)) =
      if literal.body.length < 18446744073709551616 then
        some (literal.body.length, literal.nonSync) else none := by
    rw [parseU64_toString]
    split <;> rfl
  simp only [braces, and_self, ↓reduceIte, between]
  change (if literal.inner.getLast? = some '+' then (textUpTo literal.inner
      (Slice.byteLength literal.inner - 1)).bind fun lengthText => .ok ((parseU64 lengthText).map
        fun length => (length, decide (literal.inner.getLast? = some '+')))
    else .ok ((parseU64 literal.inner).map
      fun length => (length, decide (literal.inner.getLast? = some '+')))) = _
  simp only [literal.inner_getLast, Bool.decide_eq_true]
  by_cases waits : literal.nonSync = true
  · rw [if_pos waits] at upTo ⊢
    rw [upTo]
    exact congrArg Except.ok read
  · rw [if_neg waits] at upTo ⊢
    rw [← read, ← Except.ok.inj upTo]

theorem Literal.marker_plain (literal : Literal) :
    ∀ c ∈ literal.marker, isWordChar c = true ∧ c ≠ '"' ∧ c ≠ '\r' ∧ c ≠ '\n' := by
  have digit : ∀ c : Char, c.isDigit = true →
      isWordChar c = true ∧ c ≠ '"' ∧ c ≠ '\r' ∧ c ≠ '\n' := by
    intro c digit
    have range : 48 ≤ c.toNat ∧ c.toNat ≤ 57 := by
      simpa [Char.isDigit, UInt32.le_iff_toNat_le] using digit
    have other : ∀ d : Char, d.toNat < 48 ∨ 57 < d.toNat → c ≠ d := by
      rintro d outside rfl
      omega
    have visible : isWhitespace c = false := by
      simp [isWhitespace]
      omega
    refine ⟨?_, other _ (by decide), other _ (by decide), other _ (by decide)⟩
    simp [isWordChar, visible, other '(' (by decide), other ')' (by decide), other ']' (by decide)]
  intro c member
  rw [literal.marker_eq, List.mem_append, List.mem_append, List.mem_singleton, List.mem_singleton,
    inner, List.mem_append] at member
  rcases member with (rfl | member | member) | rfl
  · decide
  · have digits : (toString literal.body.length).toList = Nat.toDigits 10 literal.body.length :=
      Nat.toList_repr
    rw [digits] at member
    exact digit c (Nat.isDigit_of_mem_toDigits (by decide) (by decide) member)
  · split at member
    · rw [List.mem_singleton] at member
      subst member
      decide
    · exact absurd member List.not_mem_nil
  · decide

theorem Literal.tokens_marker (literal : Literal) (line : List Char) :
    tokens line (' ' :: literal.marker) = .ok [String.ofList literal.marker] := by
  have plain := literal.marker_plain
  have single : tokens line (literal.marker ++ []) =
      (tokens line []).map (String.ofList literal.marker :: ·) :=
    tokens_word line (by simp [Literal.marker]) (fun c member => (plain c member).1)
      (fun member => (plain _ member).2.1 rfl) rfl
  rw [tokens_space line _ (by decide)]
  rw [List.append_nil] at single
  exact single

/-! ## Commands -/

namespace SentCommand
variable (command : SentCommand)

def givenArgs : List String :=
  command.args ++ (command.literal.map fun literal => String.ofList literal.marker).toList

theorem tokens_after (line : List Char) :
    tokens line (command.sentArgs ++ command.sentMarker) = .ok command.givenArgs := by
  unfold sentArgs sentMarker givenArgs
  rw [tokens_args]
  cases command.literal with
  | none => rfl
  | some literal =>
      change (tokens line (' ' :: literal.marker)).map _ = _
      rw [literal.tokens_marker]
      rfl

theorem sent_after :
    (command.args = [] ∧ command.literal = none ∧ command.sentArgs ++ command.sentMarker = []) ∨
      ¬ (command.args = [] ∧ command.literal = none) ∧
        ∃ rest, command.sentArgs ++ command.sentMarker = ' ' :: rest := by
  unfold sentArgs sentMarker
  cases command.args with
  | cons arg args => exact .inr ⟨by simp, _, by rw [List.flatMap_cons, List.append_assoc]; rfl⟩
  | nil =>
      cases command.literal with
      | none => exact .inl ⟨rfl, rfl, rfl⟩
      | some literal => exact .inr ⟨by simp, _, rfl⟩

theorem line_noBreaks : '\r' ∉ command.line ∧ '\n' ∉ command.line := by
  have atom : ∀ (atom : Atom) (c : Char), isAtomChar c = false → c ∉ atom.text :=
    fun atom c other member => by simp [atom.chars c member] at other
  have arg : ∀ c : Char, c ≠ ' ' → c ≠ '"' → c ≠ '\\' → (∀ arg ∈ command.args, c ∉ arg.toList) →
      c ∉ command.sentArgs := by
    intro c space quote backslash absent member
    obtain ⟨arg, given, member⟩ := List.mem_flatMap.mp member
    rw [quoteImapString_toList] at member
    simp only [List.mem_cons, List.mem_append, List.mem_flatMap, List.not_mem_nil, or_false, space,
      quote, false_or] at member
    obtain ⟨d, inArg, member⟩ := member
    unfold escaped at member
    split at member
    · simp [backslash] at member
    · split at member
      · simp [backslash, quote] at member
      · exact absent arg given (List.mem_singleton.mp member ▸ inArg)
  have marker : ∀ c : Char, c ≠ ' ' → (∀ literal : Literal, c ∉ literal.marker) →
      c ∉ command.sentMarker := by
    intro c space absent member
    unfold sentMarker at member
    split at member
    · exact absurd member List.not_mem_nil
    · rcases List.mem_cons.mp member with eq | member
      · exact space eq
      · exact absent _ member
  unfold line
  simp only [List.mem_append, List.mem_cons, not_or]
  refine ⟨⟨atom _ _ (by decide), by decide, atom _ _ (by decide), arg _ (by decide) (by decide)
      (by decide) fun a given => (command.noBreaks a given).1, marker _ (by decide) fun literal member =>
        (literal.marker_plain _ member).2.2.1 rfl⟩,
    atom _ _ (by decide), by decide, atom _ _ (by decide), arg _ (by decide) (by decide)
      (by decide) fun a given => (command.noBreaks a given).2, marker _ (by decide) fun literal member =>
        (literal.marker_plain _ member).2.2.2 rfl⟩

/-- The brackets of the tag and of the name hide no space. -/
def Named : Prop :=
  '[' ∉ command.tag.text ∧ ('[' ∈ command.name.text → command.args = [] ∧ command.literal = none)

theorem line_ne_nil : command.line ≠ [] := by simp [line]

theorem parseCommand_line :
    parseCommand (String.ofList (command.line ++ crlf)) =
      (tokens command.line command.line).bind fun
        | tag :: name :: args => .ok (some ⟨tag, name, args⟩)
        | _ => .error (.parse ("expected tag and command: " ++ String.ofList command.line)) := by
  have trimmed := trimLineEnd_append command.line_noBreaks.1 command.line_noBreaks.2
  have nonempty : command.line.isEmpty = false := by simpa using command.line_ne_nil
  unfold parseCommand
  rw [String.toList_ofList, trimmed]
  simp only [nonempty, Bool.false_eq_true, ↓reduceIte]
  change (tokens command.line command.line).bind _ = _
  congr 1

theorem tokens_tag (closed : '[' ∉ command.tag.text) (line : List Char) :
    tokens line command.line =
      (tokens line (command.name.text ++ (command.sentArgs ++ command.sentMarker))).map
        (String.ofList command.tag.text :: ·) := by
  have ends : bareToken 0 (command.tag.text.count '[')
      (' ' :: (command.name.text ++ (command.sentArgs ++ command.sentMarker))) =
      ([], ' ' :: (command.name.text ++ (command.sentArgs ++ command.sentMarker))) := by
    rw [List.count_eq_zero.mpr closed]
    rfl
  unfold SentCommand.line
  rw [tokens_word line command.tag.nonempty command.tag.plain command.tag.unquoted ends,
    tokens_space line _ (by decide)]

theorem parseCommand_named (named : command.Named) :
    parseCommand (String.ofList (command.line ++ crlf)) = .ok (some command.received.1) := by
  have ends : bareToken 0 (command.name.text.count '[') (command.sentArgs ++ command.sentMarker) =
      ([], command.sentArgs ++ command.sentMarker) := by
    rcases command.sent_after with ⟨-, -, nothing⟩ | ⟨more, rest, space⟩
    · rw [nothing]
      rfl
    · have closed : command.name.text.count '[' = 0 :=
        List.count_eq_zero.mpr fun bracket => more (named.2 bracket)
      rw [closed, space]
      rfl
  rw [parseCommand_line, tokens_tag command named.1,
    tokens_word _ command.name.nonempty command.name.plain command.name.unquoted ends, tokens_after]
  rfl

theorem parseCommand_misnamed (misnamed : ¬ command.Named) {found : Option ParsedCommand}
    (parsed : parseCommand (String.ofList (command.line ++ crlf)) = .ok found) :
    ∃ other, found = some other ∧ other ≠ command.received.1 := by
  rw [parseCommand_line] at parsed
  cases tokenized : tokens command.line command.line with
  | error failure =>
      rw [tokenized] at parsed
      cases parsed
  | ok words =>
      rw [tokenized] at parsed
      have wrong : ∀ tag name args, words = tag :: name :: args →
          (⟨tag, name, args⟩ : ParsedCommand) ≠ command.received.1 := by
        rintro tag name args rfl same
        have tagSame : tag = String.ofList command.tag.text := congrArg ParsedCommand.tag same
        have nameSame : name = String.ofList command.name.text := congrArg ParsedCommand.name same
        by_cases bracket : '[' ∈ command.tag.text
        · exact tokens_bracket command.line command.tag.plain command.tag.unquoted bracket tokenized
            (congrArg some tagSame)
        · have named : '[' ∈ command.name.text ∧ ¬ (command.args = [] ∧ command.literal = none) := by
            by_contra none
            exact misnamed ⟨bracket, fun member => by_contra fun more => none ⟨member, more⟩⟩
          rcases command.sent_after with ⟨noArgs, noLiteral, -⟩ | ⟨-, rest, space⟩
          · exact named.2 ⟨noArgs, noLiteral⟩
          · rw [tokens_tag command bracket, space] at tokenized
            cases after : tokens command.line (command.name.text ++ ' ' :: rest) with
            | error failure =>
                rw [after] at tokenized
                cases tokenized
            | ok words =>
                rw [after] at tokenized
                obtain ⟨-, rfl⟩ := List.cons.inj (Except.ok.inj tokenized)
                exact tokens_bracket command.line command.name.plain command.name.unquoted named.1
                  after (congrArg some nameSame)
      match words, parsed, wrong with
      | tag :: name :: args, parsed, wrong =>
          exact ⟨_, (Except.ok.inj parsed).symm, wrong tag name args rfl⟩

end SentCommand

/-! ## Rounds -/

def lastMarker (command : ParsedCommand) : Except Panic (Option (Nat × Bool)) :=
  match command.args.getLast? with
  | some value => parseLiteralMarker value
  | none => .ok none

theorem readCommandWithLiteral_parsed {line : String} {command : ParsedCommand}
    (parsed : parseCommand line = .ok (some command)) (following : Bytes) :
    readCommandWithLiteral line following = (orPanic (lastMarker command)).bind fun
      | none => .ret (some (command, none))
      | some (length, _) =>
          if length > maxAllocation then orPanic (.error .capacityOverflow)
          else if following.length < length then .throw (.io "early eof")
          else .ret (some (command, some (following.take length))) := by
  unfold readCommandWithLiteral lastMarker
  rw [parsed]
  simp only [Prog.ofExcept, bind_eq, ret_bind]
  cases command.args.getLast? <;> rfl

theorem readCommandWithLiteral_ret {line : String} {command : ParsedCommand}
    (parsed : parseCommand line = .ok (some command)) {following : Bytes}
    {found : Option (ParsedCommand × Option Bytes)}
    (returns : readCommandWithLiteral line following = .ret found) :
    (lastMarker command = .ok none ∧ found = some (command, none)) ∨
      ∃ length sync, lastMarker command = .ok (some (length, sync)) ∧ length ≤ maxAllocation ∧
        found = some (command, some (following.take length)) := by
  rw [readCommandWithLiteral_parsed parsed] at returns
  cases marker : lastMarker command with
  | error reason =>
      rw [marker] at returns
      cases returns
  | ok announced =>
      rw [marker] at returns
      cases announced with
      | none => exact .inl ⟨rfl, (Prog.ret.inj returns).symm⟩
      | some announced =>
          obtain ⟨length, sync⟩ := announced
          refine .inr ⟨length, sync, rfl, ?_⟩
          change (if length > maxAllocation then _ else _) = _ at returns
          split at returns
          · cases returns
          · split at returns
            · cases returns
            · exact ⟨by omega, (Prog.ret.inj returns).symm⟩

namespace SentCommand
variable (command : SentCommand)

theorem lastMarker_unannounced (none : command.literal = none) :
    lastMarker command.received.1 = .ok Option.none ↔
      ∀ arg, command.args.getLast? = some arg → parseLiteralMarker arg = .ok Option.none := by
  have args : command.received.1.args = command.args := by simp [received, none]
  unfold lastMarker
  rw [args]
  cases last : command.args.getLast? with
  | none => simp
  | some arg => simp

theorem lastMarker_announced {literal : Literal} (some : command.literal = some literal) :
    lastMarker command.received.1 = .ok (if literal.body.length < 18446744073709551616 then
      Option.some (literal.body.length, literal.nonSync) else none) := by
  have last : command.received.1.args.getLast? = Option.some (String.ofList literal.marker) := by
    simp [received, some]
  unfold lastMarker
  rw [last]
  exact literal.parse_marker

/-- What is left of the bytes of a command after its first round. -/
def unread : Bytes :=
  if command.literal.isSome then Mutations.utf8 (String.ofList crlf) else []

theorem readRound_framed (framed : command.Framed) (rest : Bytes) :
    readRound (command.bytes ++ rest) =
      .ret (some (some command.received, command.unread ++ rest)) := by
  have parsed := command.parseCommand_named ⟨framed.1, framed.2.1⟩
  obtain ⟨-, -, last⟩ := framed
  unfold bytes
  rw [List.append_assoc, readRound_line command.line_noBreaks.2,
    readCommandWithLiteral_parsed parsed]
  cases literal : command.literal with
  | none =>
      have unannounced := (command.lastMarker_unannounced literal).mpr (by rwa [literal] at last)
      have received : command.received = (command.received.1, none) := by
        simp [SentCommand.received, literal]
      rw [unannounced]
      simp only [orPanic, Prog.ret_bind, body, unread, literal]
      rw [received]
      rfl
  | some literal' =>
      rw [literal] at last
      have fits : literal'.body.length < 18446744073709551616 :=
        Nat.lt_of_le_of_lt last (by decide)
      have received : command.received = (command.received.1, some literal'.body) := by
        simp [SentCommand.received, literal]
      have small : ¬ literal'.body.length > maxAllocation := Nat.not_lt.mpr last
      rw [command.lastMarker_announced literal, if_pos fits]
      simp only [orPanic, Prog.ret_bind, body, unread, literal]
      rw [if_neg small, List.append_assoc,
        if_neg (by rw [List.length_append]; omega), List.take_left]
      simp only [Prog.ret_bind, Option.bind_some, Option.getD_some, List.drop_left]
      rw [received]
      rfl

/-- The line of a command that is not framed is read as another one, if it is read at all. -/
theorem misread (misframed : ¬ command.Framed) {following : Bytes}
    {read : Option (ParsedCommand × Option Bytes)}
    (answer : readCommandWithLiteral (String.ofList (command.line ++ crlf)) following = .ret read) :
    ∃ other, read = some other ∧ other ≠ command.received := by
  by_cases named : command.Named
  · have parsed := command.parseCommand_named named
    have last : ¬ match command.literal with
        | none => ∀ arg, command.args.getLast? = some arg → parseLiteralMarker arg = .ok none
        | some literal => literal.body.length ≤ maxAllocation :=
      fun last => misframed ⟨named.1, named.2, last⟩
    cases literal : command.literal with
    | none =>
        rw [literal] at last
        have noBody : command.received.2 = none := by simp [received, literal]
        rcases readCommandWithLiteral_ret parsed answer with ⟨unannounced, -⟩ | ⟨length, -, -, -, rfl⟩
        · exact absurd ((command.lastMarker_unannounced literal).mp unannounced) last
        · refine ⟨_, rfl, fun same => ?_⟩
          rw [← same] at noBody
          cases noBody
    | some literal' =>
        rw [literal] at last
        have hasBody : command.received.2 = some literal'.body := by simp [received, literal]
        have marker := command.lastMarker_announced literal
        rcases readCommandWithLiteral_ret parsed answer with
          ⟨-, rfl⟩ | ⟨length, sync, announced, bound, -⟩
        · refine ⟨_, rfl, fun same => ?_⟩
          rw [← same] at hasBody
          cases hasBody
        · rw [marker] at announced
          split at announced
          · cases announced
            exact absurd bound last
          · cases announced
  · cases parse : parseCommand (String.ofList (command.line ++ crlf)) with
    | error failure =>
        unfold readCommandWithLiteral at answer
        rw [parse] at answer
        cases answer
    | ok found =>
        obtain ⟨other, rfl, differs⟩ := command.parseCommand_misnamed named parse
        rcases readCommandWithLiteral_ret parse answer with ⟨-, rfl⟩ | ⟨length, sync, -, -, rfl⟩
        · exact ⟨_, rfl, fun same => differs (congrArg Prod.fst same)⟩
        · exact ⟨_, rfl, fun same => differs (congrArg Prod.fst same)⟩

theorem readRound_misframed (misframed : ¬ command.Framed) (rest : Bytes)
    {found : Option (Option (ParsedCommand × Option Bytes) × Bytes)}
    (returns : readRound (command.bytes ++ rest) = .ret found) :
    ∃ other left, found = some (some other, left) ∧ other ≠ command.received := by
  unfold bytes at returns
  rw [List.append_assoc, readRound_line command.line_noBreaks.2] at returns
  cases answer : readCommandWithLiteral (String.ofList (command.line ++ crlf))
      (command.body ++ rest) with
  | throw failure =>
      rw [answer] at returns
      cases returns
  | call op next =>
      rw [answer] at returns
      cases returns
  | ret read =>
      rw [answer] at returns
      suffices wrong : ∃ other, read = some other ∧ other ≠ command.received by
        obtain ⟨other, rfl, differs⟩ := wrong
        exact ⟨other, _, (Prog.ret.inj returns).symm, differs⟩
      exact command.misread misframed answer

theorem readRound_crlf (rest : Bytes) :
    readRound (Mutations.utf8 (String.ofList crlf) ++ rest) = .ret (some (none, rest)) := by
  have line := readRound_line (@List.not_mem_nil _ '\n') rest
  rw [List.nil_append] at line
  rw [line]
  rfl

theorem readRounds_framed (framed : command.Framed) (rounds : Nat) (rest : Bytes) :
    readRounds (command.rounds + rounds) (command.bytes ++ rest) =
      (readRounds rounds rest).bind fun read => .ret (command.received :: read.1, read.2) := by
  have first := command.readRound_framed framed rest
  cases literal : command.literal with
  | none =>
      rw [SentCommand.rounds, literal, show (if (none : Option Literal).isSome = true then 2 else 1) +
        rounds = rounds + 1 by simp; omega, readRounds, first]
      simp only [unread, literal]
      rfl
  | some literal' =>
      rw [SentCommand.rounds, literal, show (if (some literal').isSome = true then 2 else 1) +
        rounds = rounds + 1 + 1 by simp; omega, readRounds, first]
      simp only [unread, literal, Option.isSome_some, ↓reduceIte, bind_eq, ret_bind]
      rw [readRounds, readRound_crlf]
      simp only [bind_eq, ret_bind, pure_eq, bind_assoc]
      rfl

theorem readRounds_misframed (misframed : ¬ command.Framed) (rounds : Nat) (rest : Bytes)
    {commands : List (ParsedCommand × Option Bytes)} {left : Bytes} :
    readRounds (command.rounds + rounds) (command.bytes ++ rest) ≠
      .ret (command.received :: commands, left) := by
  obtain ⟨others, count⟩ : ∃ others, command.rounds + rounds = others + 1 :=
    ⟨command.rounds + rounds - 1, by unfold SentCommand.rounds; split <;> omega⟩
  intro reads
  rw [count, readRounds, bind_eq, bind_eq_ret] at reads
  obtain ⟨found, first, reads⟩ := reads
  obtain ⟨other, after, rfl, differs⟩ := command.readRound_misframed misframed rest first
  dsimp only at reads
  rw [bind_eq, bind_eq_ret] at reads
  obtain ⟨read, -, same⟩ := reads
  have heads := congrArg (·.1.head?) (Prog.ret.inj same)
  exact differs (Option.some.inj heads)

end SentCommand

/-! ## The stream -/

/-- The rounds that a list of commands takes read the list, and no byte after it, exactly if every
command is framed. -/
theorem commands_come_through_iff (commands : List SentCommand) (following : Bytes) :
    readRounds (roundsOf commands) (serialise commands ++ following) =
        .ret (commands.map SentCommand.received, following) ↔
      ∀ command ∈ commands, command.Framed := by
  induction commands with
  | nil => exact ⟨fun _ _ member => absurd member List.not_mem_nil, fun _ => rfl⟩
  | cons command commands ih =>
      have bytes : serialise (command :: commands) ++ following =
          command.bytes ++ (serialise commands ++ following) := by
        rw [serialise, List.flatMap_cons, List.append_assoc]
        rfl
      have count : roundsOf (command :: commands) = command.rounds + roundsOf commands := by
        rw [roundsOf, List.map_cons, List.sum_cons]
        rfl
      rw [bytes, count, List.forall_mem_cons, List.map_cons]
      by_cases framed : command.Framed
      · rw [command.readRounds_framed framed, and_iff_right framed, ← ih, bind_eq_ret]
        constructor
        · rintro ⟨⟨read, left⟩, reads, same⟩
          cases same
          exact reads
        · exact fun reads => ⟨_, reads, rfl⟩
      · refine ⟨fun reads => absurd reads ?_, fun all => absurd all.1 framed⟩
        exact command.readRounds_misframed framed _ _

/-- `a1 SEARCH "SUBJECT" "{3}"`, a search for a text in braces. -/
def searchForBraces : SentCommand where
  tag := ⟨['a', '1'], by decide, List.all_eq_true.mp (by decide)⟩
  name := ⟨['S', 'E', 'A', 'R', 'C', 'H'], by decide, List.all_eq_true.mp (by decide)⟩
  args := ["SUBJECT", "\x7b3\x7d"]
  noBreaks := by decide
  literal := none

def noop : SentCommand where
  tag := ⟨['a', '2'], by decide, List.all_eq_true.mp (by decide)⟩
  name := ⟨['N', 'O', 'O', 'P'], by decide, List.all_eq_true.mp (by decide)⟩
  args := []
  noBreaks := by decide
  literal := none

/-- The start of the next command is taken for the body of a literal. -/
theorem quoted_braces_take_next_command :
    readRounds (roundsOf [searchForBraces, noop]) (serialise [searchForBraces, noop]) ≠
      .ret ([searchForBraces.received, noop.received], []) := by
  have marker : parseLiteralMarker "\x7b3\x7d" = .ok (some (3, false)) := by decide +kernel
  have misframed : ¬ searchForBraces.Framed := by
    rintro ⟨-, -, unannounced⟩
    have none := unannounced "\x7b3\x7d" rfl
    rw [marker] at none
    cases none
  have wrong : readRounds (searchForBraces.rounds + 1) (searchForBraces.bytes ++ noop.bytes) ≠
      .ret (searchForBraces.received :: [noop.received], []) :=
    searchForBraces.readRounds_misframed misframed 1 noop.bytes
  have bytes : serialise [searchForBraces, noop] = searchForBraces.bytes ++ noop.bytes := by
    simp [serialise]
  rw [bytes]
  exact wrong

end ImapCache.CommandStream
