import Mathlib.Data.List.Pairwise
import Mathlib.Data.List.Nodup

/-!
# Counting from delayed notices

A client keeps the count of a collection from notices that arrive late. The notice of an insertion
makes it compare the collection, as it is when the notice arrives, with the count it was told last;
the notice of a deletion lowers its count by one; the notice of a change of a member only refreshes
what it compares with. `Consistent` is what the notices under way have to satisfy so that the client
is right once they have arrived.
-/

namespace ImapCache.Lib.Counting

inductive Notice where
  | inserted
  | deleted (position : Int)
  | changed (member : Int)
deriving DecidableEq, Repr

/-- The positions that the deletions among some notices tell of. -/
def positions (notices : List Notice) : List Int :=
  notices.filterMap fun
    | .deleted position => some position
    | _ => none

@[simp] theorem positions_append (a b : List Notice) : positions (a ++ b) = positions a ++ positions b :=
  List.filterMap_append

/-- `members` are in the collection, `notices` under way; the client has counted `count` and compares
with `compared`. -/
structure Consistent (members : List Int) (notices : List Notice) (count compared : Int) : Prop where
  ordered : notices.Pairwise fun earlier later => later = .inserted → earlier = .inserted
  present : ∀ member, .changed member ∈ notices → member ∈ members
  inserting : .inserted ∈ notices → positions notices = [] ∧ count = compared ∧ compared ≤ members.length
  otherwise : .inserted ∉ notices → count = members.length + (positions notices).length ∧
    (positions notices = [] → compared = members.length)
  inRange : ∀ (i : Nat) (position : Int), (positions notices)[i]? = some position → 1 ≤ position ∧ position ≤ count - i

namespace Consistent
variable {members members' : List Int} {notices : List Notice} {count compared : Int}

theorem count_eq (consistent : Consistent members [] count compared) : count = members.length := by
  simpa [positions] using (consistent.otherwise List.not_mem_nil).1

theorem start (members : List Int) : Consistent members [] members.length members.length where
  ordered := List.Pairwise.nil
  present _ member := absurd member List.not_mem_nil
  inserting member := absurd member List.not_mem_nil
  otherwise _ := ⟨by simp [positions], fun _ => rfl⟩
  inRange i position found := by simp [positions] at found

theorem insert (consistent : Consistent members notices count compared)
    (only : ∀ notice ∈ notices, notice = .inserted) (grows : members.length ≤ members'.length) :
    Consistent members' (notices ++ [.inserted]) count compared where
  ordered := by
    refine List.pairwise_append.mpr ⟨consistent.ordered, List.pairwise_singleton _ _, ?_⟩
    intro earlier here _ _ _
    exact only earlier here
  present member here := by
    rcases List.mem_append.mp here with old | new
    · cases only _ old
    · simp at new
  inserting _ := by
    have none : positions notices = [] := by
      rw [positions, List.filterMap_eq_nil_iff]
      intro notice here
      rw [only notice here]
    refine ⟨by rw [positions_append, none]; rfl, ?_⟩
    by_cases waiting : Notice.inserted ∈ notices
    · obtain ⟨-, same, bound⟩ := consistent.inserting waiting
      exact ⟨same, by omega⟩
    · obtain ⟨counted, settled⟩ := consistent.otherwise waiting
      have := settled none
      simp only [none, List.length_nil] at counted
      omega
  otherwise absent := absurd (List.mem_append_right _ (List.mem_singleton_self _)) absent
  inRange := by simpa [positions] using consistent.inRange

theorem delete (consistent : Consistent members notices count compared) {position deleted : Int}
    (noInsertion : .inserted ∉ notices) (noChange : .changed deleted ∉ notices)
    (keeps : ∀ member ∈ members, member ≠ deleted → member ∈ members')
    (shrinks : members'.length + 1 = members.length) (first : 1 ≤ position)
    (last : position ≤ members.length) :
    Consistent members' (notices ++ [.deleted position]) count compared where
  ordered := by
    refine List.pairwise_append.mpr ⟨consistent.ordered, List.pairwise_singleton _ _, ?_⟩
    intro earlier _ later here insertion
    rw [List.mem_singleton] at here
    subst here
    cases insertion
  present member here := by
    rcases List.mem_append.mp here with old | new
    · refine keeps member (consistent.present member old) ?_
      rintro rfl
      exact noChange old
    · simp at new
  inserting here := by
    rcases List.mem_append.mp here with old | new
    · exact absurd old noInsertion
    · simp at new
  otherwise _ := by
    obtain ⟨counted, -⟩ := consistent.otherwise noInsertion
    refine ⟨?_, fun none => by simp [positions] at none⟩
    simp only [positions_append, List.length_append]
    simp only [positions, List.filterMap_cons, List.filterMap_nil, List.length_singleton]
    simp only [positions] at counted
    omega
  inRange i position' found := by
    obtain ⟨counted, -⟩ := consistent.otherwise noInsertion
    rw [positions_append] at found
    rcases Nat.lt_or_ge i (positions notices).length with earlier | latest
    · rw [List.getElem?_append_left earlier] at found
      exact consistent.inRange i position' found
    · rw [List.getElem?_append_right latest] at found
      have single : positions [.deleted position] = [position] := rfl
      rw [single, List.getElem?_singleton] at found
      split at found
      · cases found
        exact ⟨first, by omega⟩
      · cases found

theorem keep (consistent : Consistent members notices count compared)
    (keeps : ∀ member ∈ members, member ∈ members') (same : members'.length = members.length) :
    Consistent members' notices count compared where
  ordered := consistent.ordered
  present member listed := keeps member (consistent.present member listed)
  inserting waiting := same ▸ consistent.inserting waiting
  otherwise absent := same ▸ consistent.otherwise absent
  inRange := consistent.inRange

theorem change (consistent : Consistent members notices count compared) {changed : Int}
    (here : changed ∈ members) : Consistent members (notices ++ [.changed changed]) count compared := by
  have noPosition : positions (notices ++ [.changed changed]) = positions notices := by
    simp [positions]
  have waiting : .inserted ∈ notices ++ [.changed changed] ↔ .inserted ∈ notices := by simp
  refine ⟨?_, fun member listed => ?_, ?_, ?_, ?_⟩
  · refine List.pairwise_append.mpr ⟨consistent.ordered, List.pairwise_singleton _ _, ?_⟩
    intro earlier _ later single insertion
    rw [List.mem_singleton] at single
    subst single
    cases insertion
  · rcases List.mem_append.mp listed with old | new
    · exact consistent.present member old
    · rw [List.mem_singleton] at new
      cases new
      exact here
  · rw [waiting, noPosition]
    exact consistent.inserting
  · rw [waiting, noPosition]
    exact consistent.otherwise
  · rw [noPosition]
    exact consistent.inRange

end Consistent

/-! ## Arrivals -/

variable {members : List Int} {notices : List Notice} {count compared : Int}

theorem Consistent.arrive_inserted
    (consistent : Consistent members (.inserted :: notices) count compared) :
    count = compared ∧ compared ≤ members.length ∧
      Consistent members notices members.length members.length := by
  obtain ⟨none, same, bound⟩ := consistent.inserting (List.mem_cons_self ..)
  have none : positions notices = [] := by simpa [positions] using none
  refine ⟨same, bound, (List.pairwise_cons.mp consistent.ordered).2, fun member here => ?_, fun _ => ?_,
    fun _ => ?_, fun i position found => ?_⟩
  · exact consistent.present member (List.mem_cons_of_mem _ here)
  · exact ⟨none, rfl, Int.le_refl _⟩
  · exact ⟨by simp [none], fun _ => rfl⟩
  · simp [none] at found

theorem Consistent.arrive_deleted {position : Int}
    (consistent : Consistent members (.deleted position :: notices) count compared) :
    1 ≤ position ∧ position ≤ count ∧ Consistent members notices (count - 1) members.length := by
  have listed : positions (.deleted position :: notices) = position :: positions notices := rfl
  have absent : .inserted ∉ notices := by
    intro here
    have before := (List.pairwise_cons.mp consistent.ordered).1 _ here rfl
    cases before
  have known := consistent.inRange 0 position (by rw [listed]; rfl)
  obtain ⟨counted, -⟩ := consistent.otherwise (by simp [absent])
  rw [listed, List.length_cons] at counted
  refine ⟨known.1, by omega, (List.pairwise_cons.mp consistent.ordered).2, fun member here => ?_,
    fun here => absurd here absent, fun _ => ⟨by push_cast at counted ⊢; omega, fun _ => rfl⟩,
    fun i position' found => ?_⟩
  · exact consistent.present member (List.mem_cons_of_mem _ here)
  · have shifted := consistent.inRange (i + 1) position' (by rw [listed]; exact found)
    push_cast at shifted
    omega

theorem Consistent.arrive_changed {member : Int}
    (consistent : Consistent members (.changed member :: notices) count compared) :
    member ∈ members ∧ Consistent members notices count members.length := by
  have absent : .inserted ∉ notices := by
    intro here
    have before := (List.pairwise_cons.mp consistent.ordered).1 _ here rfl
    cases before
  have same : positions (.changed member :: notices) = positions notices := rfl
  obtain ⟨counted, -⟩ := consistent.otherwise (by simp [absent])
  rw [same] at counted
  refine ⟨consistent.present member (List.mem_cons_self ..), (List.pairwise_cons.mp consistent.ordered).2,
    fun other here => ?_, fun here => absurd here absent, fun _ => ⟨counted, fun _ => rfl⟩, ?_⟩
  · exact consistent.present other (List.mem_cons_of_mem _ here)
  · rw [← same]
    exact consistent.inRange

end ImapCache.Lib.Counting
