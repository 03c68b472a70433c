import ImapCache.Model.Searching

/-!
# Search terms

A client sends search keys, alone or in a tree of NOT and OR, as tokens. The parser reads a key off the
front of its tokens and leaves what follows, so it reads a tree back as the tree that was sent.
-/

namespace ImapCache.Search

/-! ## Readers of tokens -/

/-- A reader that takes the tokens at the front, and the same ones whatever follows them. -/
def Takes {α : Type} (read : List String → Except Error (α × List String)) : Prop :=
  ∀ values value left, read values = .ok (value, left) →
    ∃ front, values = front ++ left ∧ ∀ rest, read (front ++ rest) = .ok (value, rest)

theorem Takes.extends {α : Type} {read : List String → Except Error (α × List String)} (takes : Takes read)
    {values : List String} {value : α} {left : List String} (reads : read values = .ok (value, left))
    (rest : List String) : read (values ++ rest) = .ok (value, left ++ rest) := by
  obtain ⟨front, rfl, again⟩ := takes values value left reads
  rw [List.append_assoc]
  exact again _

theorem takes_pure {α : Type} (value : α) : Takes fun rest => .ok (value, rest) := by
  rintro values value left ⟨⟩
  exact ⟨[], rfl, fun rest => rfl⟩

theorem Takes.expectTerm {α : Type} {next : String × List String → Except Error (α × List String)}
    (takesNext : ∀ term, Takes fun rest => next (term, rest)) :
    Takes fun values => Search.expectTerm values >>= next := by
  intro values value left read
  cases values with
  | nil => cases read
  | cons token values =>
      obtain ⟨front, rfl, again⟩ := takesNext token values value left read
      exact ⟨token :: front, rfl, again⟩

theorem Takes.check {α β : Type} {next : α → List String → Except Error (β × List String)}
    (outcome : Except Error α) (takesNext : ∀ value, Takes (next value)) :
    Takes fun rest => outcome >>= fun value => next value rest := by
  intro values value left read
  cases outcome with
  | error failure => cases read
  | ok checked => exact takesNext checked values value left read

theorem takes_parseKey (lib : Libraries) (key : String) : Takes (parseKey lib key) := by
  unfold parseKey
  cases flagKeys key with
  | some flags => exact takes_pure _
  | none =>
      intro values value left
      dsimp only
      -- a key has no value, one, two, or one that is checked
      split
      all_goals first
        | exact takes_pure _ values value left
        | refine (Takes.expectTerm fun term => ?_) values value left
          dsimp only
          first
            | exact takes_pure _
            | exact .check _ fun _ => takes_pure _
            | refine Takes.expectTerm fun term => ?_
              dsimp only
              exact takes_pure _

/-! ## Keys and trees as they are sent -/

/-- The tokens that the parser reads as one key. -/
structure SentKey (lib : Libraries) where
  word : String
  values : List String
  keys : SearchKeys
  reads : parseTerm lib 1 (word :: values) = .ok (.leaf keys, [])

theorem parseTerm_cons (lib : Libraries) (fuel : Nat) (token : String) (rest : List String) :
    parseTerm lib (fuel + 1) (token :: rest) =
      if eqIgnoreAsciiCase token "NOT" then
        parseTerm lib fuel rest >>= fun inner => .ok (.not inner.1, inner.2)
      else if eqIgnoreAsciiCase token "OR" then
        parseTerm lib fuel rest >>= fun left =>
          parseTerm lib fuel left.2 >>= fun right => .ok (.or left.1 right.1, right.2)
      else if eqIgnoreAsciiCase token "UID" then
        match rest with
        | [] => .error (.parse "UID requires a sequence set")
        | value :: rest => parseUidSet value >>= fun set =>
            .ok (.leaf { SearchKeys.all with uidFilter := some set, matchAll := false }, rest)
      else
        parseKey lib (toAsciiUppercase token) rest >>= fun read => .ok (.leaf read.1, read.2) := by
  cases rest <;> rfl

theorem parseTerm_zero (lib : Libraries) (tokens : List String) :
    parseTerm lib 0 tokens = .error (.parse "unexpected end of SEARCH criteria") := by
  cases tokens <;> rfl

namespace SentKey
variable {lib : Libraries} (key : SentKey lib)

def tokens : List String := key.word :: key.values

theorem parseTerm_tokens (fuel : Nat) (rest : List String) :
    parseTerm lib (fuel + 1) (key.tokens ++ rest) = .ok (.leaf key.keys, rest) := by
  have reads := key.reads
  unfold tokens
  rw [List.cons_append, parseTerm_cons]
  rw [show (1 : Nat) = 0 + 1 from rfl, parseTerm_cons] at reads
  by_cases isNot : eqIgnoreAsciiCase key.word "NOT" = true
  · simp only [isNot, ↓reduceIte, parseTerm_zero] at reads
    cases reads
  · by_cases isOr : eqIgnoreAsciiCase key.word "OR" = true
    · simp only [isNot, isOr, Bool.false_eq_true, ↓reduceIte, parseTerm_zero] at reads
      cases reads
    · simp only [isNot, isOr, Bool.false_eq_true, ↓reduceIte] at reads ⊢
      by_cases isUid : eqIgnoreAsciiCase key.word "UID" = true
      · simp only [isUid, ↓reduceIte] at reads ⊢
        cases values : key.values with
        | nil =>
            rw [values] at reads
            cases reads
        | cons value others =>
            rw [values] at reads
            dsimp only [List.cons_append] at reads ⊢
            cases set : parseUidSet value with
            | error failure =>
                rw [set] at reads
                cases reads
            | ok set =>
                rw [set] at reads
                obtain ⟨leaf, rfl⟩ := Prod.mk.inj (Except.ok.inj reads)
                rw [← leaf]
                rfl
      · simp only [isUid, Bool.false_eq_true, ↓reduceIte] at reads ⊢
        cases parsed : parseKey lib (toAsciiUppercase key.word) key.values with
        | error failure =>
            rw [parsed] at reads
            cases reads
        | ok read =>
            obtain ⟨keys, left⟩ := read
            rw [parsed] at reads
            obtain ⟨leaf, rfl⟩ := Prod.mk.inj (Except.ok.inj reads)
            rw [(takes_parseKey lib _).extends parsed rest, ← leaf]
            rfl

end SentKey

inductive SentTerm (lib : Libraries) where
  | key (sent : SentKey lib)
  | not (inner : SentTerm lib)
  | or (left right : SentTerm lib)

namespace SentTerm
variable {lib : Libraries}

def tokens : SentTerm lib → List String
  | key sent => sent.tokens
  | not inner => "NOT" :: inner.tokens
  | or left right => "OR" :: (left.tokens ++ right.tokens)

def expr : SentTerm lib → SearchExpr
  | key sent => .leaf sent.keys
  | not inner => .not inner.expr
  | or left right => .or left.expr right.expr

theorem tokens_ne_nil (term : SentTerm lib) : term.tokens ≠ [] := by
  cases term <;> simp [tokens, SentKey.tokens]

theorem parseTerm_tokens (term : SentTerm lib) (rest : List String) {fuel : Nat}
    (enough : term.tokens.length ≤ fuel) :
    parseTerm lib fuel (term.tokens ++ rest) = .ok (term.expr, rest) := by
  induction term generalizing fuel rest with
  | key sent =>
      obtain ⟨fuel, rfl⟩ : ∃ n, fuel = n + 1 := ⟨fuel - 1, by simp [tokens, SentKey.tokens] at enough; omega⟩
      exact sent.parseTerm_tokens fuel rest
  | not inner ih =>
      simp only [tokens, List.length_cons] at enough
      obtain ⟨fuel, rfl⟩ : ∃ n, fuel = n + 1 := ⟨fuel - 1, by omega⟩
      rw [tokens, List.cons_append, parseTerm_cons]
      rw [if_pos (by decide), ih rest (by omega)]
      rfl
  | or left right leftIh rightIh =>
      simp only [tokens, List.length_cons, List.length_append] at enough
      obtain ⟨fuel, rfl⟩ : ∃ n, fuel = n + 1 := ⟨fuel - 1, by omega⟩
      rw [tokens, List.cons_append, List.append_assoc, parseTerm_cons]
      rw [if_neg (by decide), if_pos (by decide), leftIh _ (by omega)]
      change parseTerm lib fuel (right.tokens ++ rest) >>= _ = _
      rw [rightIh rest (by omega)]
      rfl

end SentTerm

/-! ## Queries -/

def SearchKeys.nothing : SearchKeys := { SearchKeys.all with matchAll := false }

theorem SearchKeys.nothing_merge (keys : SearchKeys) :
    nothing.merge keys = { keys with matchAll := false } := by
  have bound : ∀ {α : Type} (pick : α → α → α) (next : Option α), mergeBound pick none next = next := by
    intro α pick next
    cases next <;> rfl
  have text : ∀ next, mergeQueryString none next = next := by
    intro next
    cases next <;> rfl
  simp only [merge, nothing, all, bound, text, Bool.false_or, List.nil_append, Option.none_or]

def SentKey.alone {lib : Libraries} (key : SentKey lib) : SearchKeys :=
  { key.keys with matchAll := key.keys.isIdentity }

theorem SearchKeys.isIdentity_congr (keys : SearchKeys) (matchAll : Bool) :
    { keys with matchAll }.isIdentity = keys.isIdentity := rfl

theorem SearchKeys.eq_all_of_isIdentity {keys : SearchKeys} (identity : keys.isIdentity = true) :
    { keys with matchAll := true } = all := by
  simpa [isIdentity] using identity

theorem SentKey.fromImapArgs_tokens {lib : Libraries} (key : SentKey lib) :
    fromImapArgs lib key.tokens = .ok ⟨key.alone, none⟩ := by
  have term := key.parseTerm_tokens key.values.length []
  rw [List.append_nil] at term
  have terms : parseTerms lib key.tokens.length key.tokens .nothing [] =
      .ok (if key.keys.isIdentity then .nothing else SearchKeys.nothing.merge key.keys, []) := by
    rw [tokens, List.length_cons, parseTerms]
    · change parseTerm lib (key.values.length + 1) key.tokens >>= _ = _
      rw [term]
      cases key.values <;> rfl
    · nofun
  unfold fromImapArgs
  rw [if_neg (by simp [tokens])]
  change parseTerms lib key.tokens.length key.tokens .nothing [] >>= _ = _
  rw [terms]
  by_cases identity : key.keys.isIdentity = true
  · have all : key.alone = .all := by
      rw [alone, identity]
      exact SearchKeys.eq_all_of_isIdentity identity
    rw [if_pos identity, all]
    rfl
  · have other : key.keys.isIdentity = false := by simpa using identity
    rw [if_neg identity, SearchKeys.nothing_merge, alone, other]
    change (if ([] : List SearchExpr).isEmpty && ({ key.keys with matchAll := false }).isIdentity then
      Except.ok _ else Except.ok _) = _
    rw [SearchKeys.isIdentity_congr, other]
    rfl

theorem SentTerm.fromImapArgs_tokens {lib : Libraries} (term : SentTerm lib)
    (tree : ∀ keys, term.expr ≠ .leaf keys) :
    fromImapArgs lib term.tokens = .ok ⟨.nothing, some term.expr⟩ := by
  have parsed := term.parseTerm_tokens [] (le_refl _)
  rw [List.append_nil] at parsed
  obtain ⟨token, rest, tokens⟩ := List.exists_cons_of_ne_nil term.tokens_ne_nil
  have terms : parseTerms lib term.tokens.length term.tokens .nothing [] =
      .ok (.nothing, [term.expr]) := by
    rw [tokens] at parsed ⊢
    rw [List.length_cons, parseTerms]
    · rw [parsed]
      cases expr : term.expr with
      | leaf keys => exact absurd expr (tree keys)
      | and children => cases rest <;> rfl
      | or left right => cases rest <;> rfl
      | not inner => cases rest <;> rfl
    · nofun
  unfold fromImapArgs
  rw [if_neg (by simp [term.tokens_ne_nil])]
  change parseTerms lib term.tokens.length term.tokens .nothing [] >>= _ = _
  rw [terms]
  rfl

end ImapCache.Search
