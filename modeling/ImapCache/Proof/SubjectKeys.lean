import ImapCache.Lib.Trimming
import ImapCache.Proof.SubjectThreads
import ImapCache.Proof.WhiteSpace

/-!
# Normalised subjects

`normalize_thread_subject` takes the marks of replies off a subject, one in a round of its loop. Every
round makes the subject shorter, what the loop leaves has no mark, and marks that are put in front of a
subject come off again whatever their letter case is and whatever white space is around them.
-/

namespace ImapCache.Threads
open Search Lib Trimming

/-! ## Marks -/

def threadMarks : List String := ["re:", "fwd:", "fw:"]

def Unmarked (value : List Char) : Prop :=
  ∀ mark ∈ threadMarks, ¬mark.toList <+: value.map Char.toLower

theorem isMark_cases {mark : List Char} (isMark : String.ofList (mark.map Char.toLower) ∈ threadMarks) :
    mark.map Char.toLower = ['r', 'e', ':'] ∨ mark.map Char.toLower = ['f', 'w', 'd', ':'] ∨
      mark.map Char.toLower = ['f', 'w', ':'] := by
  simp only [threadMarks, List.mem_cons, List.not_mem_nil, or_false] at isMark
  rcases isMark with same | same | same
  · exact .inl (by simpa using congrArg String.toList same)
  · exact .inr (.inl (by simpa using congrArg String.toList same))
  · exact .inr (.inr (by simpa using congrArg String.toList same))

theorem findSome_marked {mark : List Char} (isMark : String.ofList (mark.map Char.toLower) ∈ threadMarks)
    (rest : List Char) :
    (["re:", "fwd:", "fw:"].findSome? fun head =>
      stripPrefix head.toList (mark.map Char.toLower ++ rest)) = some rest := by
  rcases isMark_cases isMark with same | same | same <;> rw [same] <;> rfl

theorem stripThreadSubjectPrefix_marked {mark : List Char}
    (isMark : String.ofList (mark.map Char.toLower) ∈ threadMarks) (rest : List Char) :
    stripThreadSubjectPrefix (mark ++ rest) = .ok (some (trimStart rest)) := by
  have found := findSome_marked isMark (rest.map Char.toLower)
  have offset : Slice.byteLength (mark ++ rest) - Slice.byteLength (rest.map Char.toLower) =
      Slice.byteLength mark := by
    rw [byteLength_map_toLower, Slice.byteLength_append, Nat.add_sub_cancel]
  unfold stripThreadSubjectPrefix
  simp only [List.map_append, found, offset, Protocol.textFrom, Slice.dropBytes_append]
  rfl

theorem stripThreadSubjectPrefix_unmarked {value : List Char} (unmarked : Unmarked value) :
    stripThreadSubjectPrefix value = .ok none := by
  have nothing : (["re:", "fwd:", "fw:"].findSome? fun head =>
      stripPrefix head.toList (value.map Char.toLower)) = none := by
    rw [List.findSome?_eq_none_iff]
    intro mark isMark
    unfold stripPrefix
    rw [if_neg]
    rw [List.isPrefixOf_iff_prefix]
    exact unmarked mark isMark
  unfold stripThreadSubjectPrefix
  simp only [nothing]
  rfl

theorem mark_of_not_unmarked {value : List Char} (marked : ¬Unmarked value) :
    ∃ mark rest, String.ofList (mark.map Char.toLower) ∈ threadMarks ∧ value = mark ++ rest := by
  simp only [Unmarked, not_forall, not_not] at marked
  obtain ⟨mark, isMark, starts⟩ := marked
  obtain ⟨after, lower⟩ := starts
  obtain ⟨before, rest, rfl, same, -⟩ := List.map_eq_append_iff.mp lower.symm
  exact ⟨before, rest, by rwa [same, String.ofList_toList], rfl⟩

theorem mark_ne_nil {mark : List Char} (isMark : String.ofList (mark.map Char.toLower) ∈ threadMarks) :
    0 < mark.length := by
  rw [← List.length_map (f := Char.toLower)]
  rcases isMark_cases isMark with same | same | same <;> rw [same] <;> decide

/-! ## The loop -/

theorem trimStart_length_le (value : List Char) : (trimStart value).length ≤ value.length :=
  (List.dropWhile_sublist _).length_le

theorem stripThreadSubject_marked {mark : List Char}
    (isMark : String.ofList (mark.map Char.toLower) ∈ threadMarks) (rest : List Char) (fuel : Nat) :
    stripThreadSubject (fuel + 1) (mark ++ rest) = stripThreadSubject fuel (trimStart rest) := by
  have shorter : trimStart rest ≠ mark ++ rest := by
    intro same
    have := congrArg List.length same
    have := trimStart_length_le rest
    have := mark_ne_nil isMark
    rw [List.length_append] at *
    omega
  have twice : trimStart (trimStart rest) = trimStart rest := List.dropWhile_idempotent isWhitespace rest
  rw [stripThreadSubject, stripThreadSubjectPrefix_marked isMark]
  simp only [bind, Except.bind]
  rw [if_neg shorter, twice]

theorem stripThreadSubject_unmarked {value : List Char} (unmarked : Unmarked value) (fuel : Nat) :
    stripThreadSubject fuel value = .ok value := by
  cases fuel with
  | zero => rfl
  | succ fuel =>
      rw [stripThreadSubject, stripThreadSubjectPrefix_unmarked unmarked]
      rfl

theorem stripThreadSubject_ends (fuel : Nat) (value : List Char) (enough : value.length ≤ fuel) :
    ∃ stripped, Unmarked stripped ∧ stripped <:+ value ∧
      (trimStart value = value → trimStart stripped = stripped) ∧
      ∀ more, stripThreadSubject (fuel + more) value = .ok stripped := by
  induction fuel generalizing value with
  | zero =>
      have empty : value = [] := List.eq_nil_of_length_eq_zero (by omega)
      subst empty
      have unmarked : Unmarked [] := by
        unfold Unmarked
        decide
      exact ⟨[], unmarked, List.suffix_refl _, fun same => same,
        fun more => stripThreadSubject_unmarked unmarked _⟩
  | succ fuel ih =>
      by_cases unmarked : Unmarked value
      · exact ⟨value, unmarked, List.suffix_refl _, fun same => same,
          fun more => stripThreadSubject_unmarked unmarked _⟩
      · obtain ⟨mark, rest, isMark, rfl⟩ := mark_of_not_unmarked unmarked
        have shorter : (trimStart rest).length ≤ fuel := by
          have := trimStart_length_le rest
          have := mark_ne_nil isMark
          rw [List.length_append] at enough
          omega
        obtain ⟨stripped, done, ending, front, runs⟩ := ih (trimStart rest) shorter
        refine ⟨stripped, done, ending.trans ((List.dropWhile_suffix _).trans (List.suffix_append _ _)),
          fun _ => front (List.dropWhile_idempotent isWhitespace rest), fun more => ?_⟩
        rw [Nat.add_right_comm, stripThreadSubject_marked isMark]
        exact runs more

theorem stripThreadSubject_marked_enough {mark rest : List Char}
    (isMark : String.ofList (mark.map Char.toLower) ∈ threadMarks) :
    stripThreadSubject (mark ++ rest).length (mark ++ rest) =
      stripThreadSubject (trimStart rest).length (trimStart rest) := by
  obtain ⟨stripped, -, -, -, runs⟩ := stripThreadSubject_ends _ (trimStart rest) (Nat.le_refl _)
  have bound := trimStart_length_le rest
  have positive := mark_ne_nil isMark
  obtain ⟨more, fuel⟩ : ∃ more, (mark ++ rest).length = ((trimStart rest).length + more) + 1 :=
    ⟨(mark ++ rest).length - (trimStart rest).length - 1, by rw [List.length_append]; omega⟩
  rw [fuel, stripThreadSubject_marked isMark, runs more]
  exact (runs 0).symm

/-! ## White space around a subject -/

theorem isWhitespace_toLower (c : Char) : isWhitespace c.toLower = isWhitespace c := by
  by_cases upper : c.isUpper
  · have bounds : 65 ≤ c.val ∧ c.val ≤ 90 := by simpa [Char.isUpper] using upper
    have ascii : c.toLower.toNat = c.toNat + 32 := by
      have lower : c.toLower.val = c.val + 32 := by simp [Char.toLower, bounds]
      have high : c.val.toNat ≤ 90 := bounds.2
      change c.toLower.val.toNat = c.val.toNat + 32
      rw [lower, UInt32.toNat_add, Nat.mod_eq_of_lt]
      · rfl
      · change c.val.toNat + 32 < 4294967296
        omega
    have low : 65 ≤ c.toNat := bounds.1
    have high : c.toNat ≤ 90 := bounds.2
    rw [isWhitespace_of_printable (by omega) (by omega), isWhitespace_of_printable (by omega) (by omega)]
  · rw [Char.toLower_eq_of_not_isUpper upper]

theorem trimStart_map_toLower (value : List Char) :
    trimStart (value.map Char.toLower) = (trimStart value).map Char.toLower := by
  have same : isWhitespace ∘ Char.toLower = isWhitespace := funext isWhitespace_toLower
  rw [trimStart, List.dropWhile_map, same]
  rfl

theorem trim_marked {before mark rest : List Char} (blank : ∀ c ∈ before, isWhitespace c = true)
    (isMark : String.ofList (mark.map Char.toLower) ∈ threadMarks) :
    trim (before ++ (mark ++ rest)) = mark ++ rest.rdropWhile isWhitespace := by
  -- A mark starts with a letter and ends with a colon.
  obtain ⟨first, inner, last, rfl, front, back⟩ : ∃ first inner last, mark = first :: inner ++ [last] ∧
      isWhitespace first = false ∧ isWhitespace last = false := by
    have lower : ∀ c d : Char, c.toLower = d → isWhitespace d = false → isWhitespace c = false := by
      intro c d same plain
      rw [← isWhitespace_toLower, same, plain]
    rcases isMark_cases isMark with same | same | same
    all_goals
      simp only [List.map_eq_cons_iff, List.map_eq_nil_iff] at same
    · obtain ⟨a, _, rfl, ha, b, _, rfl, hb, d, _, rfl, hd, rfl⟩ := same
      exact ⟨a, [b], d, rfl, lower a _ ha (by decide), lower d _ hd (by decide)⟩
    · obtain ⟨a, _, rfl, ha, b, _, rfl, hb, d, _, rfl, hd, e, _, rfl, he, rfl⟩ := same
      exact ⟨a, [b, d], e, rfl, lower a _ ha (by decide), lower e _ he (by decide)⟩
    · obtain ⟨a, _, rfl, ha, b, _, rfl, hb, d, _, rfl, hd, rfl⟩ := same
      exact ⟨a, [b], d, rfl, lower a _ ha (by decide), lower d _ hd (by decide)⟩
  have kept : (first :: inner ++ [last]).rdropWhile isWhitespace = first :: inner ++ [last] :=
    List.rdropWhile_concat_neg _ _ _ (by simp [back])
  rw [trim_eq, List.dropWhile_append_of_pos blank, List.cons_append, List.cons_append,
    List.dropWhile_cons_of_neg (by simp [front]), ← List.cons_append, ← List.cons_append,
    rdropWhile_append, kept]
  split
  · rename_i nothing
    rw [nothing, List.append_nil]
  · rfl

/-! ## Marked subjects -/

/-- A mark of a reply in any letter case, with white space before and after it. -/
structure ReplyMark where
  before : List Char
  mark : List Char
  after : List Char
  isMark : String.ofList (mark.map Char.toLower) ∈ threadMarks
  blankBefore : ∀ c ∈ before, isWhitespace c = true
  blankAfter : ∀ c ∈ after, isWhitespace c = true

def ReplyMark.text (mark : ReplyMark) : List Char := mark.before ++ mark.mark ++ mark.after

def replied (marks : List ReplyMark) (subject : String) : String :=
  String.ofList (marks.flatMap ReplyMark.text ++ subject.toList)

def strippedSubject (subject : List Char) : Except Panic (List Char) :=
  stripThreadSubject (trim subject).length (trim subject)

theorem strippedSubject_marked (mark : ReplyMark) (subject : List Char) :
    strippedSubject (mark.text ++ subject) = strippedSubject subject := by
  have shape : mark.text ++ subject = mark.before ++ (mark.mark ++ (mark.after ++ subject)) := by
    simp [ReplyMark.text]
  have rest : trimStart ((mark.after ++ subject).rdropWhile isWhitespace) = trim subject := by
    rw [trimStart, dropWhile_rdropWhile, List.dropWhile_append_of_pos mark.blankAfter]
    rfl
  unfold strippedSubject
  rw [shape, trim_marked mark.blankBefore mark.isMark, stripThreadSubject_marked_enough mark.isMark, rest]

theorem strippedSubject_replied (marks : List ReplyMark) (subject : List Char) :
    strippedSubject (marks.flatMap ReplyMark.text ++ subject) = strippedSubject subject := by
  induction marks with
  | nil => rfl
  | cons mark marks ih => rw [List.flatMap_cons, List.append_assoc, strippedSubject_marked, ih]

theorem normalizeThreadSubject_eq (subject : String) :
    normalizeThreadSubject (some subject) =
      (strippedSubject subject.toList).map fun stripped => toAsciiLowercase (String.ofList stripped) := by
  unfold normalizeThreadSubject strippedSubject
  simp only [Option.getD_some]
  cases stripThreadSubject (trim subject.toList).length (trim subject.toList) <;> rfl

theorem map_toLower_idem (value : List Char) :
    (value.map Char.toLower).map Char.toLower = value.map Char.toLower := by
  rw [List.map_map]
  exact List.map_congr_left fun c _ => Char.toLower_toLower_eq_toLower c

theorem subject_normalization (subject : String) :
    ∃ key, normalizeThreadSubject (some subject) = .ok key ∧
      (∀ more, stripThreadSubject ((trim subject.toList).length + more) (trim subject.toList) =
        stripThreadSubject (trim subject.toList).length (trim subject.toList)) ∧
      normalizeThreadSubject (some key) = .ok key ∧
      (∀ mark ∈ threadMarks, ¬mark.toList <+: key.toList) ∧
      ∀ marks, normalizeThreadSubject (some (replied marks subject)) = .ok key := by
  obtain ⟨stripped, unmarked, ending, front, runs⟩ :=
    stripThreadSubject_ends _ (trim subject.toList) (Nat.le_refl _)
  have value : strippedSubject subject.toList = .ok stripped := runs 0
  have same (subject' : String) (stripsTo : strippedSubject subject'.toList = .ok stripped) :
      normalizeThreadSubject (some subject') = .ok (toAsciiLowercase (String.ofList stripped)) := by
    rw [normalizeThreadSubject_eq, stripsTo]
    rfl
  have lower : (toAsciiLowercase (String.ofList stripped)).toList = stripped.map Char.toLower := by
    rw [toAsciiLowercase, String.toList_ofList, String.toList_ofList]
  refine ⟨toAsciiLowercase (String.ofList stripped), same subject value,
    fun more => (runs more).trans (runs 0).symm, ?_, ?_, fun marks => same _ ?_⟩
  · -- The key has neither a mark nor white space at its ends.
    have trimmedStart : trimStart stripped = stripped := front (by
      rw [trim_eq, trimStart, dropWhile_rdropWhile, List.dropWhile_idempotent])
    have trimmedEnd : stripped.rdropWhile isWhitespace = stripped := by
      obtain ⟨before, split⟩ := ending
      have whole : (before ++ stripped).rdropWhile isWhitespace = before ++ stripped := by
        rw [split, trim_eq]
        exact List.rdropWhile_idempotent _ _
      rw [rdropWhile_append] at whole
      split at whole
      · rename_i nothing
        have bound := (List.rdropWhile_prefix isWhitespace before).length_le
        rw [whole, List.length_append] at bound
        rw [List.eq_nil_of_length_eq_zero (by omega : stripped.length = 0)]
        rfl
      · exact List.append_cancel_left whole
    have kept : trim (stripped.map Char.toLower) = stripped.map Char.toLower := by
      change (trimStart (stripped.map Char.toLower)).rdropWhile isWhitespace = _
      rw [trimStart_map_toLower, trimmedStart, rdropWhile_map isWhitespace_toLower, trimmedEnd]
    have plain : Unmarked (stripped.map Char.toLower) := by
      intro mark isMark
      rw [map_toLower_idem]
      exact unmarked mark isMark
    rw [normalizeThreadSubject_eq, lower]
    unfold strippedSubject
    rw [kept, stripThreadSubject_unmarked plain]
    change Except.ok (toAsciiLowercase (String.ofList (stripped.map Char.toLower))) = _
    rw [toAsciiLowercase, toAsciiLowercase, String.toList_ofList, String.toList_ofList, map_toLower_idem]
  · intro mark isMark
    rw [lower]
    exact unmarked mark isMark
  · rw [replied, String.toList_ofList, strippedSubject_replied, value]

end ImapCache.Threads
