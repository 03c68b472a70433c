import ImapCache.Model.ObjectStores
import ImapCache.Model.Sample

/-!
# Range reads agree

The memory and the filesystem store cut the same bytes out of an object, and so does a FETCH that
reads all of it. R2 does, too, unless it asks S3 for a range behind the object.
-/

namespace ImapCache.ObjectStores
open RawFetch

/-- The part of an object from one position up to another, as far as they lie in it. -/
def part (bytes : Bytes) (start : Nat) (stop : Option Nat) : Bytes :=
  (bytes.take (min (stop.getD bytes.length) bytes.length)).drop (min start bytes.length)

def maxPosition : Nat := 18446744073709551615

/-- A range whose end, if it has one, is not before its start. -/
structure Range where
  start : Nat
  stop : Option Nat
  ordered : ∀ position ∈ stop, start ≤ position
  fits : ∀ position ∈ stop, position ≤ maxPosition

variable {bytes : Bytes} {start : Nat} {stop : Option Nat}

theorem part_behind (behind : bytes.length ≤ start) : part bytes start stop = [] := by
  rw [part, min_eq_right behind]
  exact List.drop_eq_nil_of_le (by simp)

theorem part_within (within : start < bytes.length) :
    part bytes start stop = (bytes.take (min (stop.getD bytes.length) bytes.length)).drop start := by
  rw [part, min_eq_left within.le]

theorem stop_within (range : Range) (within : range.start < bytes.length) :
    range.start ≤ min (range.stop.getD bytes.length) bytes.length := by
  rcases range with ⟨start, stop, ordered, fits⟩
  cases stop with
  | none => simpa using within.le
  | some position => exact le_min (ordered position rfl) within.le

theorem memoryGetRange_eq {objects : Objects} {key : String} (stored : objects.lookup key = some bytes)
    (range : Range) :
    memoryGetRange objects key range.start range.stop =
      .ok (.ok (some (part bytes range.start range.stop))) := by
  simp only [memoryGetRange, stored]
  split
  · rename_i behind
    rw [part_behind behind]
  · rename_i within
    have within : range.start < bytes.length := not_le.mp within
    rw [part_within within, slice, if_pos ⟨stop_within range within, min_le_right ..⟩]
    rfl

theorem filesystemGetRange_eq {objects : Objects} {key : String}
    (stored : objects.lookup key = some bytes) (range : Range) :
    filesystemGetRange objects key range.start range.stop =
      .ok (.ok (some (part bytes range.start range.stop))) := by
  simp only [filesystemGetRange, stored]
  split
  · rename_i behind
    rw [part_behind behind]
  · rename_i within
    have within : range.start < bytes.length := not_le.mp within
    have bounds := stop_within range within
    rw [if_neg (not_lt.mpr bounds), part_within within, readExact, if_neg, List.take_drop]
    · rw [Nat.add_sub_cancel' bounds]
      rfl
    · rw [List.length_drop]
      omega

theorem applyPartial_eq (range : Range) :
    applyPartial bytes (some (range.start, range.stop.map (· - range.start))) =
      part bytes range.start range.stop := by
  simp only [applyPartial]
  split
  · rename_i behind
    rw [part_behind behind]
  · rename_i within
    rw [part_within (not_le.mp within)]
    rcases range with ⟨start, stop, ordered, fits⟩
    cases stop with
    | none => simp
    | some position =>
        have bound : position ≤ maxPosition := fits position rfl
        have restored : saturatingEnd start (position - start) = position := by
          rw [saturatingEnd, Nat.add_sub_cancel' (ordered position rfl)]
          exact min_eq_left bound
        simp [restored]

theorem r2GetRange_iff {getObject : GetObject} (service : getObject.Ranged) {objects : Objects} {key : String}
    (stored : objects.lookup key = some bytes) (range : Range) :
    r2GetRange getObject objects key range.start range.stop =
        .ok (some (part bytes range.start range.stop)) ↔
      range.start < bytes.length ∨ range.stop = some range.start := by
  rcases range with ⟨start, stop, ordered, fits⟩
  simp only [r2GetRange, stored]
  by_cases within : start < bytes.length
  · have satisfied (last : Option Nat) (ascending : ∀ position ∈ last, start ≤ position) :
        rangedGetObject getObject bytes ⟨start, last⟩ =
          .ok (some ((bytes.take ((last.map (· + 1)).getD bytes.length)).drop start)) := by
      rw [rangedGetObject, service.satisfied bytes ⟨start, last⟩ within ascending]
    simp only [within, true_or, iff_true]
    cases stop with
    | none =>
        rw [satisfied none (by simp), part_within within]
        simp
    | some position =>
        have le : start ≤ position := ordered position rfl
        rw [part_within within]
        by_cases empty : position = start
        · subst empty
          simp [min_eq_left within.le]
        · have positive : position > 0 ∧ position > start := by omega
          have last : position - 1 + 1 = position := by omega
          have ascending : ∀ end' ∈ some (position - 1), start ≤ end' := by
            rintro end' ⟨⟩
            omega
          dsimp only
          rw [if_pos positive, satisfied _ ascending, Option.map_some, Option.getD_some, last,
            Option.getD_some, ← List.take_eq_take_min]
  · have refused (last : Option Nat) : ∃ message,
        rangedGetObject getObject bytes ⟨start, last⟩ = .error (.storage message) := by
      obtain ⟨message, refused⟩ := service.unsatisfiable bytes ⟨start, last⟩ (not_lt.mp within)
      exact ⟨"S3 ranged get_object failed: " ++ message, by rw [rangedGetObject, refused]⟩
    simp only [within, false_or]
    cases stop with
    | none =>
        obtain ⟨message, refused⟩ := refused none
        simp [refused]
    | some position =>
        have le : start ≤ position := ordered position rfl
        by_cases empty : position = start
        · subst empty
          simp [part_behind (not_lt.mp within)]
        · have positive : position > 0 ∧ position > start := by omega
          obtain ⟨message, refused⟩ := refused (some (position - 1))
          simp [positive, refused, empty]

/-- Of an object that all stores have under its content address, the memory and the filesystem store
read the same part, which a FETCH cuts out of the whole object. R2 reads it if and only if the range
starts within the object or is empty. -/
theorem range_reads_agree_iff (lib : Libraries) {getObject : GetObject} (service : getObject.Ranged)
    {memory files bucket : Objects} {key : String}
    (inMemory : memory.lookup key = some bytes) (inFiles : files.lookup key = some bytes)
    (inBucket : bucket.lookup key = some bytes)
    (addressed : validateContentAddressedBytes lib key bytes = .ok ()) (range : Range) :
    memoryGetRange memory key range.start range.stop =
        .ok (.ok (some (part bytes range.start range.stop))) ∧
      filesystemGetRange files key range.start range.stop =
        .ok (.ok (some (part bytes range.start range.stop))) ∧
      (∀ objects ∈ [memory, files, bucket], ((get lib objects key).map fun found =>
          found.map (applyPartial · (some (range.start, range.stop.map (· - range.start))))) =
        .ok (some (part bytes range.start range.stop))) ∧
      (r2GetRange getObject bucket key range.start range.stop =
          .ok (some (part bytes range.start range.stop)) ↔
        range.start < bytes.length ∨ range.stop = some range.start) := by
  refine ⟨memoryGetRange_eq inMemory range, filesystemGetRange_eq inFiles range, ?_,
    r2GetRange_iff service inBucket range⟩
  intro objects member
  have stored : objects.lookup key = some bytes := by
    simp only [List.mem_cons, List.not_mem_nil, or_false] at member
    rcases member with rfl | rfl | rfl
    · exact inMemory
    · exact inFiles
    · exact inBucket
  simp [get, stored, addressed, applyPartial_eq, bind, Except.bind, pure, Except.pure, Except.map]

/-! ## An object of four bytes -/

def bodyKey : String := "MimePart/" ++ Sample.sha256 Sample.bodyText

def bodyObjects : Objects := [(bodyKey, Sample.bodyText)]

def serve : GetObject := fun bytes range =>
  if range.first < bytes.length then
    .ok ((bytes.take ((range.last.map (· + 1)).getD bytes.length)).drop range.first)
  else .error "service error"

theorem serve_ranged : serve.Ranged where
  satisfied _ _ within _ := if_pos within
  unsatisfiable _ _ behind := ⟨"service error", if_neg (not_lt.mpr behind)⟩

def fromSecond : Range := ⟨1, none, by simp, by simp⟩

def fromEnd : Range := ⟨4, some 6, by simp, by simp [maxPosition]⟩

theorem range_reads_agree_fromSecond :
    r2GetRange serve bodyObjects bodyKey fromSecond.start fromSecond.stop =
      .ok (some (part Sample.bodyText fromSecond.start fromSecond.stop)) := by
  have stored : bodyObjects.lookup bodyKey = some Sample.bodyText := by decide +kernel
  have addressed : validateContentAddressedBytes Sample.libraries bodyKey Sample.bodyText = .ok () := by
    decide +kernel
  exact (range_reads_agree_iff Sample.libraries serve_ranged stored stored stored addressed
    fromSecond).2.2.2.mpr (Or.inl (by decide))

/-- Behind the object the other stores read nothing, where R2 fails. -/
theorem range_reads_differ :
    memoryGetRange bodyObjects bodyKey fromEnd.start fromEnd.stop = .ok (.ok (some [])) ∧
      filesystemGetRange bodyObjects bodyKey fromEnd.start fromEnd.stop = .ok (.ok (some [])) ∧
      r2GetRange serve bodyObjects bodyKey fromEnd.start fromEnd.stop =
        .error (.storage "S3 ranged get_object failed: service error") := by
  decide +kernel

end ImapCache.ObjectStores
