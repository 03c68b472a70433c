import ImapCache.Lib.ThreadLists
import ImapCache.Model.Searching

/-!
# The text of threads

THREAD writes a message without replies as its number, and one with replies in parentheses with its
replies after it. As thread lists are read, a thread has parentheses also if it is one message, and the
replies to a message are lists if there are two or more of them and are not if there is one. The text
means the forest where these two ways agree.
-/

namespace ImapCache.Threads
open Search Lib Forest ThreadLists

section Rendering
variable (uidResults : Bool) (views : List MailboxMessageView)

def threadNumber (uid : Nat) : Nat :=
  if uidResults then uid else (sequenceNumberForView views uid).getD uid

mutual
def numberedNode : ThreadNode → RoseTree Nat
  | .node uid _ _ children => .node (threadNumber uidResults views uid) (numbered children)
/-- The forest of numbers that a text should denote. -/
def numbered : List ThreadNode → List (RoseTree Nat)
  | [] => []
  | node :: nodes => numberedNode node :: numbered nodes
end

mutual
def written : RoseTree Nat → List Char
  | .node n branches =>
      if branches.isEmpty then digits n else '(' :: (digits n ++ ' ' :: writtenForest branches) ++ [')']
def writtenForest : List (RoseTree Nat) → List Char
  | [] => []
  | tree :: trees => written tree ++ if trees.isEmpty then [] else ' ' :: writtenForest trees
end

variable {uidResults views}

theorem numbered_isEmpty (nodes : List ThreadNode) :
    (numbered uidResults views nodes).isEmpty = nodes.isEmpty := by
  cases nodes <;> rfl

theorem join_cons (text : String) (texts : List String) :
    (Responses.join (text :: texts)).toList =
      text.toList ++ if texts.isEmpty then [] else ' ' :: (Responses.join texts).toList := by
  cases texts with
  | nil => simp [Responses.join]
  | cons next texts =>
      rw [Responses.join, String.intercalate_cons_cons]
      simp [Responses.join]

theorem renderThreadForest_isEmpty (nodes : List ThreadNode) :
    (renderThreadForest uidResults views nodes).isEmpty = nodes.isEmpty := by
  cases nodes <;> rfl

mutual
theorem renderThreadNode_eq : ∀ node : ThreadNode,
    (renderThreadNode uidResults views node).toList = written (numberedNode uidResults views node)
  | .node uid sortSubject sortDate children => by
      rw [renderThreadNode, numberedNode, written, numbered_isEmpty]
      have label : (threadLabel uidResults views uid).toList =
          digits (threadNumber uidResults views uid) := Nat.toList_repr
      split
      · exact label
      · simp only [String.toList_append, label, renderThreadForest_eq children]
        simp
theorem renderThreadForest_eq : ∀ nodes : List ThreadNode,
    (Responses.join (renderThreadForest uidResults views nodes)).toList =
      writtenForest (numbered uidResults views nodes)
  | [] => rfl
  | node :: nodes => by
      rw [renderThreadForest, join_cons, numbered, writtenForest, renderThreadNode_eq node,
        renderThreadForest_eq nodes, renderThreadForest_isEmpty, numbered_isEmpty]
end

end Rendering

/-! ## Texts that are read as they are meant -/

/-- A message with one reply without replies, or with two or more replies that are such threads. -/
inductive Faithful : RoseTree Nat → Prop where
  | pair (n m : Nat) : Faithful (.node n [.node m []])
  | branching (n : Nat) (first second : RoseTree Nat) (others : List (RoseTree Nat))
      (each : ∀ tree ∈ first :: second :: others, Faithful tree) :
      Faithful (.node n (first :: second :: others))

def IsPair (tree : RoseTree Nat) : Prop := ∃ n m, tree = .node n [.node m []]

variable {spaced : Bool} {tree : RoseTree Nat} {trees : List (RoseTree Nat)} {text rest otherRest : List Char}

theorem written_leaf (n : Nat) : written (.node n []) = digits n := by
  rw [written]
  rfl

theorem written_branches (n : Nat) (tree : RoseTree Nat) (trees : List (RoseTree Nat)) :
    written (.node n (tree :: trees)) =
      '(' :: (digits n ++ ' ' :: writtenForest (tree :: trees)) ++ [')'] := by
  rw [written]
  rfl

theorem writtenForest_singleton (tree : RoseTree Nat) : writtenForest [tree] = written tree := by
  rw [writtenForest]
  simp

theorem writtenForest_cons_cons (tree next : RoseTree Nat) (trees : List (RoseTree Nat)) :
    writtenForest (tree :: next :: trees) = written tree ++ ' ' :: writtenForest (next :: trees) := by
  rw [writtenForest]
  rfl

/-- What is written of a tree is a list that denotes it only if the tree is faithful. -/
def ReadsFaithful (spaced : Bool) (tree : RoseTree Nat) : Prop :=
  ∀ ⦃text rest otherRest : List Char⦄, ThreadList spaced tree text →
    text ++ rest = written tree ++ otherRest →
      Faithful tree ∧ rest = otherRest ∧ (spaced = true ∨ IsPair tree)

theorem lists_faithful (each : ∀ tree ∈ trees, ReadsFaithful spaced tree) (lists : Lists spaced trees text)
    (same : text ++ rest = writtenForest trees ++ otherRest) :
    (∀ tree ∈ trees, Faithful tree) ∧ rest = otherRest ∧
      (spaced = true ∨ ∃ tree, trees = [tree] ∧ IsPair tree) := by
  induction trees generalizing text with
  | nil => cases lists
  | cons tree trees ih =>
      have own := each tree (List.mem_cons_self ..)
      cases lists with
      | one list =>
          rw [writtenForest_singleton] at same
          obtain ⟨faithful, ended, narrow⟩ := own list same
          exact ⟨by simpa using faithful, ended, narrow.imp_right fun pair => ⟨tree, rfl, pair⟩⟩
      | more list between lists =>
          rw [writtenForest_cons_cons] at same
          simp only [List.append_assoc] at same
          obtain ⟨faithful, after, -⟩ := own list same
          obtain ⟨start, starts⟩ := lists.starts
          rcases between with rfl | ⟨rfl, rfl⟩
          · rw [starts] at after
            cases (List.cons.inj after).1
          · obtain ⟨others, ended, -⟩ := ih (fun tree member => each tree (List.mem_cons_of_mem _ member))
              lists (List.cons.inj after).2
            exact ⟨List.forall_mem_cons.mpr ⟨faithful, others⟩, ended, .inl rfl⟩

theorem reads_faithful (tree : RoseTree Nat) : ReadsFaithful spaced tree := by
  induction tree with
  | node n branches ih =>
      intro text rest otherRest list same
      cases list with
      | list members =>
          cases members with
          | last n =>
              -- a number without replies has no parentheses
              rw [written_leaf] at same
              obtain ⟨c, later, starts, isDigit⟩ := digits_starts n
              rw [starts] at same
              obtain ⟨rfl, -⟩ := List.cons.inj same
              exact absurd isDigit (by decide)
          | reply n members =>
              rename_i reply text
              rw [written_branches, writtenForest_singleton] at same
              simp only [List.cons_append, List.append_assoc, List.cons.injEq, List.append_cancel_left_eq,
                true_and] at same
              cases reply with
              | node m replies =>
                  cases replies with
                  | nil =>
                      cases members with
                      | last m =>
                          rw [written_leaf] at same
                          have ended := (List.cons.inj (List.append_cancel_left same)).2
                          exact ⟨.pair n m, ended, .inr ⟨n, m, rfl⟩⟩
                  | cons first others =>
                      -- the only reply is written as a list
                      rw [written_branches] at same
                      obtain ⟨c, later, rfl, isDigit⟩ := members.starts
                      obtain ⟨rfl, -⟩ := List.cons.inj same
                      exact absurd isDigit (by decide)
          | nested n lists =>
              rw [written_branches] at same
              simp only [List.cons_append, List.append_assoc, List.cons.injEq, List.append_cancel_left_eq,
                true_and] at same
              obtain ⟨each, ended, narrow⟩ := lists_faithful ih lists same
              refine ⟨.branching n _ _ _ each, (List.cons.inj ended).2, .inl ?_⟩
              refine narrow.resolve_right ?_
              rintro ⟨tree, single, -⟩
              cases single

/-- A faithful tree is a list of the grammar in which lists may have a space between them. -/
theorem Faithful.list (faithful : Faithful tree) : ThreadList true tree (written tree) := by
  induction faithful with
  | pair n m =>
      rw [written_branches, writtenForest_singleton, written_leaf]
      exact .list (.reply n (.last m))
  | branching n first second others each ih =>
      rw [written_branches]
      refine .list (.nested n ?_)
      clear each
      generalize second :: others = trees at ih
      induction trees generalizing first with
      | nil =>
          rw [writtenForest_singleton]
          exact .one (ih first (List.mem_singleton.mpr rfl))
      | cons next trees lists =>
          rw [writtenForest_cons_cons]
          have later := lists next fun tree member => ih tree (List.mem_cons_of_mem _ member)
          have all : Lists true (first :: next :: trees)
              (written first ++ ([' '] ++ writtenForest (next :: trees))) :=
            .more (ih first (List.mem_cons_self ..)) (.inr ⟨rfl, rfl⟩) later
          exact all

theorem lists_of_faithful (faithful : ∀ tree ∈ trees, Faithful tree) (some : trees ≠ []) :
    Lists true trees (writtenForest trees) := by
  induction trees with
  | nil => exact absurd rfl some
  | cons tree trees ih =>
      have own := (faithful tree (List.mem_cons_self ..)).list
      cases trees with
      | nil =>
          rw [writtenForest_singleton]
          exact .one own
      | cons next trees =>
          have later := ih (fun tree member => faithful tree (List.mem_cons_of_mem _ member)) (by simp)
          have all : Lists true (tree :: next :: trees)
              (written tree ++ ([' '] ++ writtenForest (next :: trees))) :=
            .more own (.inr ⟨rfl, rfl⟩) later
          rw [writtenForest_cons_cons]
          exact all

theorem denotes_written_iff (forest : List (RoseTree Nat)) :
    Denotes spaced (writtenForest forest) forest ↔ (∀ tree ∈ forest, Faithful tree) ∧
      (spaced = false → forest = [] ∨ ∃ tree, forest = [tree] ∧ IsPair tree) := by
  constructor
  · rintro (⟨rfl, -⟩ | lists)
    · exact ⟨by simp, fun _ => .inl rfl⟩
    · obtain ⟨faithful, -, narrow⟩ := lists_faithful (fun tree _ => reads_faithful tree) lists
        (rfl : writtenForest forest ++ [] = _)
      refine ⟨faithful, ?_⟩
      rintro rfl
      exact .inr (narrow.resolve_left (by decide))
  · rintro ⟨faithful, narrow⟩
    by_cases none : forest = []
    · exact .inl ⟨none, by rw [none]; rfl⟩
    · cases spaced with
      | true => exact .inr (lists_of_faithful faithful none)
      | false =>
          obtain ⟨tree, rfl, n, m, rfl⟩ := (narrow rfl).resolve_left none
          rw [writtenForest_singleton, written_branches, writtenForest_singleton, written_leaf]
          exact .inr (.one (.list (.reply n (.last m))))

/-- The text of a forest denotes it and no other exactly where every thread is faithful and, if no space may
stand between two lists, there are no two lists. -/
theorem thread_text_denotes_iff (spaced uidResults : Bool) (views : List MailboxMessageView)
    (forest : List ThreadNode) :
    (∀ other, Denotes spaced (Responses.join (renderThreadForest uidResults views forest)).toList other ↔
      other = numbered uidResults views forest) ↔
    (∀ tree ∈ numbered uidResults views forest, Faithful tree) ∧
      (spaced = false → numbered uidResults views forest = [] ∨
        ∃ tree, numbered uidResults views forest = [tree] ∧ IsPair tree) := by
  rw [renderThreadForest_eq, ← denotes_written_iff]
  constructor
  · exact fun only => (only _).mpr rfl
  · intro denotes other
    constructor
    · exact fun otherDenotes => otherDenotes.unique denotes
    · rintro rfl
      exact denotes

/-! ## Two replies -/

def twoReplies : List ThreadNode := [.node 1 "a" 0 [.node 2 "a" 1 [], .node 3 "a" 2 []]]

/-- The text of a message with two replies is that of a reply to a reply. -/
theorem replies_read_as_chain :
    Responses.join (renderThreadForest true [] twoReplies) = "(1 2 3)" ∧
      (∀ spaced, Denotes spaced "(1 2 3)".toList [.node 1 [.node 2 [.node 3 []]]]) ∧
      ¬ ∀ spaced, Denotes spaced "(1 2 3)".toList (numbered true [] twoReplies) := by
  have chain : ∀ spaced, Denotes spaced "(1 2 3)".toList [.node 1 [.node 2 [.node 3 []]]] :=
    fun spaced => .inr (.one (.list (.reply 1 (.reply 2 (.last 3)))))
  refine ⟨by decide +kernel, chain, fun denotes => ?_⟩
  have same := (denotes true).unique (chain true)
  simp only [numbered, twoReplies, numberedNode] at same
  cases same

end ImapCache.Threads
