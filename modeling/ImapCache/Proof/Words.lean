import ImapCache.Model.Protocol
import ImapCache.Model.Responses

/-!
# Words

Words joined by spaces are split into the same words, since none has white space in it.
-/

namespace ImapCache

def IsWord (text : String) : Prop := text.toList ≠ [] ∧ ∀ c ∈ text.toList, isWhitespace c = false

theorem splitOnP_join {words : List String} (some : words ≠ []) (isWord : ∀ word ∈ words, IsWord word) :
    (Responses.join words).toList.splitOnP isWhitespace = words.map String.toList := by
  unfold Responses.join
  induction words with
  | nil => exact absurd rfl some
  | cons word words ih =>
      have visible := (isWord word (List.mem_cons_self ..)).2
      cases words with
      | nil => simpa using List.splitOnP_eq_singleton visible
      | cons next rest =>
          have others := ih (by simp) fun word member => isWord word (List.mem_cons_of_mem _ member)
          rw [String.intercalate_cons_cons, String.toList_append, String.toList_append,
            List.append_assoc, show " ".toList = [' '] from rfl, List.singleton_append,
            List.splitOnP_append_cons_of_forall_mem visible ' ' (by decide), others]
          rfl

theorem splitWhitespace_join {words : List String} (isWord : ∀ word ∈ words, IsWord word) :
    Protocol.splitWhitespace (Responses.join words).toList = words := by
  by_cases none : words = []
  · rw [none]
    decide
  · have nonempty : (words.map String.toList).filter (!·.isEmpty) = words.map String.toList := by
      rw [List.filter_eq_self]
      intro text member
      obtain ⟨word, given, rfl⟩ := List.mem_map.mp member
      simpa using (isWord word given).1
    unfold Protocol.splitWhitespace
    rw [splitOnP_join none isWord, nonempty, List.map_map]
    simp

theorem mem_join {words : List String} {c : Char} (member : c ∈ (Responses.join words).toList) :
    c = ' ' ∨ ∃ word ∈ words, c ∈ word.toList := by
  unfold Responses.join at member
  induction words with
  | nil => simp at member
  | cons word words ih =>
      cases words with
      | nil => exact .inr ⟨word, List.mem_cons_self .., by simpa using member⟩
      | cons next rest =>
          rw [String.intercalate_cons_cons, String.toList_append, String.toList_append,
            List.mem_append, List.mem_append] at member
          rcases member with (own | space) | other
          · exact .inr ⟨word, List.mem_cons_self .., own⟩
          · exact .inl (List.mem_singleton.mp space)
          · rcases ih other with space | ⟨found, given, inside⟩
            · exact .inl space
            · exact .inr ⟨found, List.mem_cons_of_mem _ given, inside⟩

end ImapCache
