import ImapCache.Proof.RowSearch

/-!
# Search terms as a conjunction

A query of several terms merges its keys field by field. The merged query asks for as much as all of
the terms, except that of several UID sets one is enough and of several days only the first counts.
-/

namespace ImapCache.Search

/-! ## Terms -/

/-- Tokens that the parser reads as one term. -/
structure ReadTerm (lib : Libraries) where
  tokens : List String
  expr : SearchExpr
  reads : parseTerm lib tokens.length tokens = .ok (expr, [])

/-- What the parser reads from a list of tokens is a term at its front. It is read the same with as much fuel
as it has tokens and whatever follows it. -/
theorem parseTerm_takes {lib : Libraries} {fuel : Nat} {tokens : List String} {expr : SearchExpr}
    {left : List String} (reads : parseTerm lib fuel tokens = .ok (expr, left)) :
    ∃ front, tokens = front ++ left ∧ ∀ more, front.length ≤ more → ∀ rest,
      parseTerm lib more (front ++ rest) = .ok (expr, rest) := by
  induction fuel generalizing tokens expr left with
  | zero =>
      rw [parseTerm_zero] at reads
      cases reads
  | succ fuel ih =>
      cases tokens with
      | nil => cases reads
      | cons token tokens =>
          rw [parseTerm_cons] at reads
          -- every term takes its first token, which the rest of the fuel is not needed for
          have first {front : List String} (again : ∀ more, front.length ≤ more → ∀ rest,
              parseTerm lib (more + 1) (token :: (front ++ rest)) = .ok (expr, rest)) :
              ∀ more, (token :: front).length ≤ more → ∀ rest,
                parseTerm lib more (token :: front ++ rest) = .ok (expr, rest) := by
            intro more enough rest
            obtain ⟨more, rfl⟩ : ∃ n, more = n + 1 := ⟨more - 1, by rw [List.length_cons] at enough; omega⟩
            exact again more (by simpa using enough) rest
          split at reads
          · rename_i isNot
            cases read : parseTerm lib fuel tokens with
            | error failure => rw [read] at reads; cases reads
            | ok inner =>
                rw [read] at reads
                cases reads
                obtain ⟨front, rfl, again⟩ := ih read
                refine ⟨token :: front, rfl, first fun more enough rest => ?_⟩
                rw [parseTerm_cons, if_pos isNot, again more enough rest]
                rfl
          · rename_i notNot
            split at reads
            · rename_i isOr
              cases readLeft : parseTerm lib fuel tokens with
              | error failure => rw [readLeft] at reads; cases reads
              | ok leftTerm =>
                  rw [readLeft] at reads
                  change parseTerm lib fuel leftTerm.2 >>= _ = _ at reads
                  cases readRight : parseTerm lib fuel leftTerm.2 with
                  | error failure => rw [readRight] at reads; cases reads
                  | ok rightTerm =>
                      rw [readRight] at reads
                      cases reads
                      obtain ⟨front, rfl, again⟩ := ih readLeft
                      obtain ⟨later, split, againRight⟩ := ih readRight
                      refine ⟨token :: (front ++ later), by rw [split]; simp, first fun more enough rest => ?_⟩
                      rw [List.length_append] at enough
                      rw [parseTerm_cons, if_neg notNot, if_pos isOr, List.append_assoc,
                        again more (by omega) (later ++ rest)]
                      change parseTerm lib more (later ++ rest) >>= _ = _
                      rw [againRight more (by omega) rest]
                      rfl
            · rename_i notOr
              split at reads
              · rename_i isUid
                cases tokens with
                | nil => cases reads
                | cons value tokens =>
                    dsimp only at reads
                    cases set : parseUidSet value with
                    | error failure => rw [set] at reads; cases reads
                    | ok uids =>
                        rw [set] at reads
                        cases reads
                        refine ⟨[token, value], rfl, first fun more enough rest => ?_⟩
                        rw [parseTerm_cons, if_neg notNot, if_neg notOr, if_pos isUid]
                        dsimp only [List.cons_append]
                        rw [set]
                        rfl
              · rename_i notUid
                cases read : parseKey lib (toAsciiUppercase token) tokens with
                | error failure => rw [read] at reads; cases reads
                | ok key =>
                    rw [read] at reads
                    cases reads
                    obtain ⟨front, rfl, again⟩ := takes_parseKey lib _ _ _ _ read
                    refine ⟨token :: front, rfl, first fun more enough rest => ?_⟩
                    rw [parseTerm_cons, if_neg notNot, if_neg notOr, if_neg notUid, again rest]
                    rfl

theorem parseTerms_takes {lib : Libraries} {fuel : Nat} {tokens : List String} (enough : tokens.length ≤ fuel)
    {flat : SearchKeys} {trees : List SearchExpr} {parsed : SearchKeys × List SearchExpr}
    (reads : parseTerms lib fuel tokens flat trees = .ok parsed) :
    ∃ terms : List (ReadTerm lib), tokens = terms.flatMap (·.tokens) := by
  induction fuel generalizing tokens flat trees with
  | zero => exact ⟨[], List.length_eq_zero_iff.mp (by omega)⟩
  | succ fuel ih =>
      cases tokens with
      | nil => exact ⟨[], rfl⟩
      | cons token tokens =>
          rw [parseTerms] at reads
          · cases read : parseTerm lib (token :: tokens).length (token :: tokens) with
            | error failure => rw [read] at reads; cases reads
            | ok first =>
                obtain ⟨expr, rest⟩ := first
                rw [read] at reads
                obtain ⟨front, split, again⟩ := parseTerm_takes read
                have alone : parseTerm lib front.length front = .ok (expr, []) := by
                  simpa using again front.length (le_refl _) []
                have shorter : rest.length ≤ fuel := by
                  have lengths := congrArg List.length split
                  have nonempty : front ≠ [] := by
                    rintro rfl
                    cases alone
                  have positive := List.length_pos_iff.mpr nonempty
                  simp only [List.length_cons, List.length_append] at lengths enough
                  omega
                have later : ∃ flat trees, parseTerms lib fuel rest flat trees = .ok parsed := by
                  cases expr with
                  | leaf keys => exact ⟨_, _, reads⟩
                  | and children => exact ⟨_, _, reads⟩
                  | or left right => exact ⟨_, _, reads⟩
                  | not inner => exact ⟨_, _, reads⟩
                obtain ⟨flat, trees, later⟩ := later
                obtain ⟨terms, eq⟩ := ih shorter later
                exact ⟨⟨front, expr, alone⟩ :: terms, by rw [split, eq]; rfl⟩
          · intro eq
            cases eq

theorem terms_of_accepted {lib : Libraries} {args : List String} {query : SearchQuery}
    (accepted : fromImapArgs lib args = .ok query) :
    ∃ terms : List (ReadTerm lib), args = terms.flatMap (·.tokens) := by
  unfold fromImapArgs at accepted
  split at accepted
  · rename_i empty
    exact ⟨[], List.isEmpty_iff.mp empty⟩
  · cases parsed : parseTerms lib args.length args { SearchKeys.all with matchAll := false } [] with
    | error failure => rw [parsed] at accepted; cases accepted
    | ok found => exact parseTerms_takes (le_refl _) parsed

namespace ReadTerm
variable {lib : Libraries} (term : ReadTerm lib)

theorem tokens_ne_nil : term.tokens ≠ [] := by
  intro empty
  have reads := term.reads
  rw [empty] at reads
  cases reads

/-- The keys that are merged into the query, if the term is one that asks for anything. -/
def keys? : Option SearchKeys :=
  match term.expr with
  | .leaf keys => if keys.isIdentity then none else some keys
  | _ => none

def tree? : Option SearchExpr :=
  match term.expr with
  | .leaf _ => none
  | tree => some tree

end ReadTerm

variable {lib : Libraries}

def termTokens (terms : List (ReadTerm lib)) : List String := terms.flatMap (·.tokens)

def termKeys (terms : List (ReadTerm lib)) : List SearchKeys := terms.filterMap (·.keys?)

def termTrees (terms : List (ReadTerm lib)) : List SearchExpr := terms.filterMap (·.tree?)

def mergeAll (flat : SearchKeys) (keys : List SearchKeys) : SearchKeys := keys.foldl SearchKeys.merge flat

theorem parseTerms_terms (terms : List (ReadTerm lib)) (flat : SearchKeys) (trees : List SearchExpr)
    {fuel : Nat} (enough : (termTokens terms).length ≤ fuel) :
    parseTerms lib fuel (termTokens terms) flat trees =
      .ok (mergeAll flat (termKeys terms), trees ++ termTrees terms) := by
  induction terms generalizing flat trees fuel with
  | nil => cases fuel <;> simp [termTokens, termKeys, termTrees, mergeAll, parseTerms]
  | cons term terms ih =>
      have tokens : termTokens (term :: terms) = term.tokens ++ termTokens terms := rfl
      have positive := List.length_pos_iff.mpr term.tokens_ne_nil
      rw [tokens, List.length_append] at enough
      obtain ⟨fuel, rfl⟩ : ∃ n, fuel = n + 1 := ⟨fuel - 1, by omega⟩
      have read : parseTerm lib (termTokens (term :: terms)).length (termTokens (term :: terms)) =
          .ok (term.expr, termTokens terms) := by
        obtain ⟨front, split, again⟩ := parseTerm_takes term.reads
        rw [List.append_nil] at split
        rw [tokens, split]
        exact again _ (by simp) (termTokens terms)
      rw [parseTerms, read]
      · cases expr : term.expr with
        | leaf keys =>
            change parseTerms lib fuel (termTokens terms) (if keys.isIdentity then flat else flat.merge keys)
              trees = _
            rw [ih _ _ (by omega)]
            cases identity : keys.isIdentity with
            | true => simp [termKeys, termTrees, ReadTerm.keys?, ReadTerm.tree?, expr, identity]
            | false => simp [termKeys, termTrees, ReadTerm.keys?, ReadTerm.tree?, expr, identity, mergeAll]
        | and children =>
            change parseTerms lib fuel (termTokens terms) flat (trees ++ [.and children]) = _
            rw [ih _ _ (by omega)]
            simp [termKeys, termTrees, ReadTerm.keys?, ReadTerm.tree?, expr]
        | or left right =>
            change parseTerms lib fuel (termTokens terms) flat (trees ++ [.or left right]) = _
            rw [ih _ _ (by omega)]
            simp [termKeys, termTrees, ReadTerm.keys?, ReadTerm.tree?, expr]
        | not inner =>
            change parseTerms lib fuel (termTokens terms) flat (trees ++ [.not inner]) = _
            rw [ih _ _ (by omega)]
            simp [termKeys, termTrees, ReadTerm.keys?, ReadTerm.tree?, expr]
      · rw [tokens]
        exact fun empty => term.tokens_ne_nil (List.append_eq_nil_iff.mp empty).1

theorem matchesSearchLeaf_identity {keys : SearchKeys} (identity : keys.isIdentity = true)
    (view : MailboxMessageView) : matchesSearchLeaf lib view keys = true := by
  have same : matchesSearchLeaf lib view keys = matchesSearchLeaf lib view { keys with matchAll := true } := rfl
  rw [same, SearchKeys.eq_all_of_isIdentity identity]
  rfl

theorem matchesSearchExprs_eq (view : MailboxMessageView) (trees : List SearchExpr) :
    matchesSearchExprs lib view trees = trees.all (matchesSearchExpr lib view) := by
  induction trees with
  | nil => rw [matchesSearchExprs, List.all_nil]
  | cons tree trees ih => rw [matchesSearchExprs, ih, List.all_cons]

theorem joinTerms_all (view : MailboxMessageView) (trees : List SearchExpr) :
    (joinTerms trees).all (matchesSearchExpr lib view) = trees.all (matchesSearchExpr lib view) := by
  match trees with
  | [] => rfl
  | [tree] => simp [joinTerms]
  | first :: second :: others =>
      rw [joinTerms, Option.all_some, matchesSearchExpr, matchesSearchExprs_eq]
      · nofun
      · nofun

/-- The criteria are accepted, and a message matches the query if it matches the merged keys and every
tree. -/
theorem fromImapArgs_terms (terms : List (ReadTerm lib)) :
    ∃ query, fromImapArgs lib (termTokens terms) = .ok query ∧ ∀ view,
      matchesSearchView lib view query = (matchesSearchLeaf lib view (mergeAll .nothing (termKeys terms)) &&
        (termTrees terms).all (matchesSearchExpr lib view)) := by
  unfold fromImapArgs
  cases terms with
  | nil => exact ⟨_, rfl, fun view => rfl⟩
  | cons term terms =>
      have nonempty : (termTokens (term :: terms)).isEmpty = false := by
        have some := term.tokens_ne_nil
        simp [termTokens, some]
      rw [nonempty]
      change ∃ query, (parseTerms lib _ (termTokens (term :: terms)) .nothing [] >>= _) =
        Except.ok query ∧ _
      rw [parseTerms_terms _ _ _ (le_refl _), List.nil_append]
      change ∃ query : SearchQuery, (if (termTrees (term :: terms)).isEmpty &&
          (mergeAll .nothing (termKeys (term :: terms))).isIdentity then
        (Except.ok ⟨SearchKeys.all, none⟩ : Except Error SearchQuery)
        else .ok ⟨mergeAll .nothing (termKeys (term :: terms)), joinTerms (termTrees (term :: terms))⟩) =
          .ok query ∧ _
      split
      · rename_i nothing
        rw [Bool.and_eq_true, List.isEmpty_iff] at nothing
        refine ⟨_, rfl, fun view => ?_⟩
        rw [nothing.1, matchesSearchLeaf_identity nothing.2]
        rfl
      · refine ⟨_, rfl, fun view => ?_⟩
        rw [matchesSearchView, joinTerms_all]

/-! ## What merged keys ask for -/

def uidSets (keys : List SearchKeys) : List UidSet := keys.filterMap (·.uidFilter)

def onDays (keys : List SearchKeys) : List Int := keys.filterMap (·.internalDateOn)

def sentOnDays (keys : List SearchKeys) : List Int := keys.filterMap (·.sentDateOn)

theorem mergeAll_strict (view : MailboxMessageView) (keys : List SearchKeys) (flat : SearchKeys) :
    matchesSearchLeaf lib view (mergeAll flat keys).strict =
      (matchesSearchLeaf lib view flat.strict &&
        keys.all fun keys => matchesSearchLeaf lib view keys.strict) := by
  induction keys generalizing flat with
  | nil => simp [mergeAll]
  | cons first keys ih =>
      change matchesSearchLeaf lib view (mergeAll (flat.merge first) keys).strict = _
      rw [ih, matchesSearchLeaf_strict_merge, List.all_cons, Bool.and_assoc]

theorem mergeAll_first {field : SearchKeys → Option Int}
    (keeps : ∀ a b : SearchKeys, field (a.merge b) = (field a).or (field b))
    (keys : List SearchKeys) (flat : SearchKeys) :
    field (mergeAll flat keys) = (field flat).or (keys.filterMap field).head? := by
  induction keys generalizing flat with
  | nil => simp [mergeAll]
  | cons first keys ih =>
      change field (mergeAll (flat.merge first) keys) = _
      rw [ih, keeps, List.filterMap_cons]
      cases field first with
      | none => simp
      | some day => cases field flat <;> simp

theorem mergeAll_uidFilter (uid : Nat) (keys : List SearchKeys) (flat : SearchKeys) :
    (mergeAll flat keys).uidFilter.all (·.contains uid) = true ↔
      flat.uidFilter.toList ++ uidSets keys = [] ∨
        ∃ set ∈ flat.uidFilter.toList ++ uidSets keys, set.contains uid = true := by
  induction keys generalizing flat with
  | nil => cases given : flat.uidFilter <;> simp [mergeAll, uidSets, given]
  | cons first keys ih =>
      have merged : (flat.merge first).uidFilter =
          SearchKeys.mergeBound UidSet.union flat.uidFilter first.uidFilter := rfl
      have sets : uidSets (first :: keys) = first.uidFilter.toList ++ uidSets keys := by
        cases given : first.uidFilter <;> simp [uidSets, given]
      have union (a b : UidSet) : (a.union b).contains uid = (a.contains uid || b.contains uid) := by
        simp [UidSet.union, UidSet.contains]
      change (mergeAll (flat.merge first) keys).uidFilter.all _ = true ↔ _
      rw [ih, merged, sets]
      cases flat.uidFilter with
      | none => cases first.uidFilter <;> simp [SearchKeys.mergeBound]
      | some set =>
          cases first.uidFilter with
          | none => simp [SearchKeys.mergeBound]
          | some other => simp [SearchKeys.mergeBound, union, or_assoc]

/-- What merged keys ask for: of several UID sets that the UID is in one of them, of several days only
the first, and of everything else all of it. -/
theorem mergeAll_meets (view : MailboxMessageView) (keys : List SearchKeys) :
    matchesSearchLeaf lib view (mergeAll .nothing keys) = true ↔
      (∀ one ∈ keys, matchesSearchLeaf lib view one.strict = true) ∧
        (uidSets keys = [] ∨ ∃ set ∈ uidSets keys, set.contains (viewUid view) = true) ∧
        (∀ day ∈ (onDays keys).head?, dayOf (Responses.internalDate view) = day) ∧
        ∀ day ∈ (sentOnDays keys).head?, dayOf (sentDate view) = day := by
  have nothing : matchesSearchLeaf lib view SearchKeys.nothing.strict = true := rfl
  have on : (mergeAll .nothing keys).internalDateOn = (onDays keys).head? :=
    mergeAll_first (fun _ _ => rfl) keys .nothing
  have sentOn : (mergeAll .nothing keys).sentDateOn = (sentOnDays keys).head? :=
    mergeAll_first (fun _ _ => rfl) keys .nothing
  have uids : (mergeAll .nothing keys).uidFilter.all (·.contains (viewUid view)) = true ↔
      uidSets keys = [] ∨ ∃ set ∈ uidSets keys, set.contains (viewUid view) = true :=
    mergeAll_uidFilter (viewUid view) keys .nothing
  rw [matchesSearchLeaf_split, mergeAll_strict, nothing, on, sentOn, Bool.and_eq_true, Bool.and_eq_true,
    Bool.and_eq_true, uids]
  simp only [Option.all_eq_true, beq_iff_eq, Bool.true_and, List.all_eq_true, Option.mem_def]
  tauto

theorem each_meets (view : MailboxMessageView) (keys : List SearchKeys) :
    (∀ one ∈ keys, matchesSearchLeaf lib view one = true) ↔
      (∀ one ∈ keys, matchesSearchLeaf lib view one.strict = true) ∧
        (∀ set ∈ uidSets keys, set.contains (viewUid view) = true) ∧
        (∀ day ∈ onDays keys, dayOf (Responses.internalDate view) = day) ∧
        ∀ day ∈ sentOnDays keys, dayOf (sentDate view) = day := by
  have split (one : SearchKeys) : matchesSearchLeaf lib view one = true ↔
      matchesSearchLeaf lib view one.strict = true ∧
        (∀ set, one.uidFilter = some set → set.contains (viewUid view) = true) ∧
        (∀ day, one.internalDateOn = some day → dayOf (Responses.internalDate view) = day) ∧
        ∀ day, one.sentDateOn = some day → dayOf (sentDate view) = day := by
    rw [matchesSearchLeaf_split]
    simp only [Bool.and_eq_true, Option.all_eq_true, beq_iff_eq]
    tauto
  simp only [uidSets, onDays, sentOnDays, List.mem_filterMap]
  constructor
  · intro each
    have parts (one : SearchKeys) (member : one ∈ keys) := (split one).mp (each one member)
    refine ⟨fun one member => (parts one member).1, ?_, ?_, ?_⟩
    · rintro set ⟨one, member, has⟩
      exact (parts one member).2.1 set has
    · rintro day ⟨one, member, has⟩
      exact (parts one member).2.2.1 day has
    · rintro day ⟨one, member, has⟩
      exact (parts one member).2.2.2 day has
  · rintro ⟨strict, sets, days, sentDays⟩ one member
    exact (split one).mpr ⟨strict one member, fun set has => sets set ⟨one, member, has⟩,
      fun day has => days day ⟨one, member, has⟩, fun day has => sentDays day ⟨one, member, has⟩⟩

/-! ## The conjunction -/

/-- A message matches the query that is made of the term alone. -/
def ReadTerm.MatchesAlone (term : ReadTerm lib) (view : MailboxMessageView) : Prop :=
  ∃ query, fromImapArgs lib term.tokens = .ok query ∧ matchesSearchView lib view query = true

theorem ReadTerm.matchesAlone_iff (term : ReadTerm lib) (view : MailboxMessageView) :
    term.MatchesAlone view ↔ (∀ keys, term.keys? = some keys → matchesSearchLeaf lib view keys = true) ∧
      ∀ tree, term.tree? = some tree → matchesSearchExpr lib view tree = true := by
  obtain ⟨query, accepted, matched⟩ := fromImapArgs_terms [term]
  have alone : termTokens [term] = term.tokens := by simp [termTokens]
  rw [alone] at accepted
  have holds : term.MatchesAlone view ↔ matchesSearchView lib view query = true := by
    constructor
    · rintro ⟨other, accepted', matched'⟩
      rw [accepted] at accepted'
      cases accepted'
      exact matched'
    · exact fun matched => ⟨query, accepted, matched⟩
  rw [holds, matched, Bool.and_eq_true]
  have keys : termKeys [term] = term.keys?.toList := by
    cases given : term.keys? <;> simp [termKeys, given]
  have trees : termTrees [term] = term.tree?.toList := by
    cases given : term.tree? <;> simp [termTrees, given]
  have merged (one : SearchKeys) : matchesSearchLeaf lib view (mergeAll .nothing [one]) =
      matchesSearchLeaf lib view one := by
    rw [mergeAll, List.foldl_cons, List.foldl_nil, SearchKeys.nothing_merge]
    rfl
  have nothing : matchesSearchLeaf lib view (mergeAll .nothing []) = true := rfl
  rw [keys, trees]
  cases term.keys? with
  | none => cases term.tree? <;> simp [nothing]
  | some one => cases term.tree? <;> simp [merged]

/-- A message meets every term that is neither a UID set nor ON nor SENTON. -/
def MeetsOthers (terms : List (ReadTerm lib)) (view : MailboxMessageView) : Prop :=
  (∀ keys ∈ termKeys terms, matchesSearchLeaf lib view keys.strict = true) ∧
    ∀ tree ∈ termTrees terms, matchesSearchExpr lib view tree = true

/-- A message is in one of the UID sets, if there are any, and has the first of each kind of days. -/
def MeetsFirst (keys : List SearchKeys) (view : MailboxMessageView) : Prop :=
  (uidSets keys = [] ∨ ∃ set ∈ uidSets keys, set.contains (viewUid view) = true) ∧
    (∀ day ∈ (onDays keys).head?, dayOf (Responses.internalDate view) = day) ∧
    ∀ day ∈ (sentOnDays keys).head?, dayOf (sentDate view) = day

/-- A message is in all of the UID sets and has all of the days. -/
def MeetsEach (keys : List SearchKeys) (view : MailboxMessageView) : Prop :=
  (∀ set ∈ uidSets keys, set.contains (viewUid view) = true) ∧
    (∀ day ∈ onDays keys, dayOf (Responses.internalDate view) = day) ∧
    ∀ day ∈ sentOnDays keys, dayOf (sentDate view) = day

theorem MeetsEach.first {keys : List SearchKeys} {view : MailboxMessageView} (each : MeetsEach keys view) :
    MeetsFirst keys view := by
  refine ⟨?_, fun day first => each.2.1 day (List.mem_of_mem_head? first),
    fun day first => each.2.2 day (List.mem_of_mem_head? first)⟩
  cases sets : uidSets keys with
  | nil => exact .inl rfl
  | cons set others => exact .inr ⟨set, by simp, each.1 set (by simp [sets])⟩

/-- One UID set, one ON and one SENTON at most are all met as soon as the first of each is. -/
theorem MeetsFirst.each {keys : List SearchKeys} {view : MailboxMessageView} (first : MeetsFirst keys view)
    (sets : (uidSets keys).length ≤ 1) (days : (onDays keys).length ≤ 1)
    (sentDays : (sentOnDays keys).length ≤ 1) : MeetsEach keys view := by
  obtain ⟨someSet, firstDay, firstSentDay⟩ := first
  have only {α : Type} {list : List α} (short : list.length ≤ 1) {x : α} (member : x ∈ list) :
      list = [x] := by
    match list, member with
    | [y], member => rw [List.mem_singleton.mp member]
    | y :: z :: others, _ => simp at short
  refine ⟨fun set member => ?_, fun day member => ?_, fun day member => ?_⟩
  · rw [only sets member] at someSet
    simpa using someSet
  · rw [only days member] at firstDay
    exact firstDay day rfl
  · rw [only sentDays member] at firstSentDay
    exact firstSentDay day rfl

theorem all_alone_iff (terms : List (ReadTerm lib)) (view : MailboxMessageView) :
    (∀ term ∈ terms, term.MatchesAlone view) ↔ MeetsOthers terms view ∧ MeetsEach (termKeys terms) view := by
  have each := @each_meets lib view (termKeys terms)
  have alone : (∀ term ∈ terms, term.MatchesAlone view) ↔
      (∀ keys ∈ termKeys terms, matchesSearchLeaf lib view keys = true) ∧
        ∀ tree ∈ termTrees terms, matchesSearchExpr lib view tree = true := by
    simp only [ReadTerm.matchesAlone_iff, termKeys, termTrees, List.mem_filterMap]
    constructor
    · intro all
      refine ⟨?_, ?_⟩
      · rintro keys ⟨term, member, has⟩
        exact (all term member).1 keys has
      · rintro tree ⟨term, member, has⟩
        exact (all term member).2 tree has
    · rintro ⟨keys, trees⟩ term member
      exact ⟨fun one has => keys one ⟨term, member, has⟩, fun tree has => trees tree ⟨term, member, has⟩⟩
  rw [alone, each, MeetsOthers, MeetsEach]
  tauto

/-- Criteria are accepted exactly if they are terms one after the other. A message matches the query exactly if
it matches each of the terms alone, unless it meets the first UID set, ON and SENTON and all other terms and
misses a further UID set or day. -/
theorem terms_conjunction_iff (lib : Libraries) :
    (∀ args query, fromImapArgs lib args = .ok query → ∃ terms : List (ReadTerm lib), args = termTokens terms) ∧
      ∀ (terms : List (ReadTerm lib)) (view : MailboxMessageView),
        ∃ query, fromImapArgs lib (termTokens terms) = .ok query ∧
          ((matchesSearchView lib view query = true ↔ ∀ term ∈ terms, term.MatchesAlone view) ↔
            (MeetsOthers terms view → MeetsFirst (termKeys terms) view →
              MeetsEach (termKeys terms) view)) := by
  refine ⟨fun args query => terms_of_accepted, fun terms view => ?_⟩
  obtain ⟨query, accepted, matched⟩ := fromImapArgs_terms terms
  refine ⟨query, accepted, ?_⟩
  have whole : matchesSearchView lib view query = true ↔
      MeetsOthers terms view ∧ MeetsFirst (termKeys terms) view := by
    rw [matched, Bool.and_eq_true, mergeAll_meets, List.all_eq_true, MeetsOthers, MeetsFirst]
    tauto
  rw [whole, all_alone_iff]
  constructor
  · intro same others first
    exact (same.mp ⟨others, first⟩).2
  · intro kept
    exact ⟨fun met => ⟨met.1, kept met.1 met.2⟩, fun met => ⟨met.1, met.2.first⟩⟩

/-! ## Two UID keys -/

def uidKeys (uid : Nat) : SearchKeys := { SearchKeys.nothing with uidFilter := some ⟨[(uid, uid)]⟩ }

def twoUids : List (ReadTerm Sample.libraries) :=
  [⟨["UID", "1"], .leaf (uidKeys 1), rfl⟩, ⟨["UID", "2"], .leaf (uidKeys 2), rfl⟩]

/-- The message with UID 1 matches both keys together and only one of them alone. -/
theorem twoUids_not_conjunction :
    ¬ ∀ (lib : Libraries) (terms : List (ReadTerm lib)) (view : MailboxMessageView) (query : SearchQuery),
      fromImapArgs lib (termTokens terms) = .ok query →
        (matchesSearchView lib view query = true ↔ ∀ term ∈ terms, term.MatchesAlone view) := by
  intro conjunction
  have accepted : fromImapArgs Sample.libraries (termTokens twoUids) =
      .ok ⟨(uidKeys 1).merge (uidKeys 2), none⟩ := rfl
  have same := conjunction Sample.libraries twoUids (Sample.view 1 [] "") _ accepted
  have together : matchesSearchView Sample.libraries (Sample.view 1 [] "")
      ⟨(uidKeys 1).merge (uidKeys 2), none⟩ = true := by decide +kernel
  obtain ⟨query, read, matched⟩ := same.mp together _ (List.mem_cons_of_mem _ (List.mem_singleton.mpr rfl))
  have alone : fromImapArgs Sample.libraries ["UID", "2"] = .ok ⟨uidKeys 2, none⟩ := rfl
  have missed : matchesSearchView Sample.libraries (Sample.view 1 [] "") ⟨uidKeys 2, none⟩ = false := by
    decide +kernel
  cases alone.symm.trans read
  rw [missed] at matched
  cases matched

end ImapCache.Search
