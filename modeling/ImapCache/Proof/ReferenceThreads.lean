import Mathlib.Data.List.Dedup
import ImapCache.Lib.Forest
import ImapCache.Lib.Orderings
import ImapCache.Lib.Sorting
import ImapCache.Model.Searching

/-!
# Threads by references

`thread_references` puts a message below the message that it names last in its references. The messages
are found by their ids, and messages without an id are put below none. As long as no id is there twice and
no message is above itself, the threads are the forest of this relation, and every message is in it once.
-/

namespace ImapCache.Threads
open Search Lib Forest Orderings

/-! ## Forests of messages -/

mutual
/-- The node of a message with the messages below it. -/
def thread : RoseTree ThreadMessage → ThreadNode
  | .node message branches => message.leaf.withChildren (threads branches)
def threads : List (RoseTree ThreadMessage) → List ThreadNode
  | [] => []
  | tree :: trees => thread tree :: threads trees
end

mutual
def nodeUids : ThreadNode → List Nat
  | .node uid _ _ children => uid :: uidsOf children
def uidsOf : List ThreadNode → List Nat
  | [] => []
  | node :: nodes => nodeUids node ++ uidsOf nodes
end

mutual
def nodeDepth : ThreadNode → Nat
  | .node _ _ _ children => depthOf children + 1
def depthOf : List ThreadNode → Nat
  | [] => 0
  | node :: nodes => max (nodeDepth node) (depthOf nodes)
end

theorem threads_eq (trees : List (RoseTree ThreadMessage)) : threads trees = trees.map thread := by
  induction trees with
  | nil => rfl
  | cons tree trees ih => rw [threads, ih, List.map_cons]

theorem thread_node (message : ThreadMessage) (branches : List (RoseTree ThreadMessage)) :
    thread (.node message branches) =
      .node message.uid message.subjectKey message.sortDate (threads branches) := by
  rw [thread]
  rfl

mutual
theorem nodeUids_thread : ∀ tree, nodeUids (thread tree) = tree.labels.map (·.uid)
  | .node message branches => by
      rw [thread_node, nodeUids, RoseTree.labels, List.map_cons, uidsOf_threads branches]
theorem uidsOf_threads : ∀ trees, uidsOf (threads trees) = (RoseTree.labelsOf trees).map (·.uid)
  | [] => rfl
  | tree :: trees => by
      rw [threads, uidsOf, RoseTree.labelsOf, List.map_append, nodeUids_thread tree, uidsOf_threads trees]
end

mutual
theorem nodeDepth_thread : ∀ tree, nodeDepth (thread tree) = tree.depth
  | .node message branches => by
      rw [thread_node, nodeDepth, RoseTree.depth, depthOf_threads branches]
theorem depthOf_threads : ∀ trees, depthOf (threads trees) = RoseTree.depthOf trees
  | [] => rfl
  | tree :: trees => by
      rw [threads, depthOf, RoseTree.depthOf, nodeDepth_thread tree, depthOf_threads trees]
end

/-! ### Sorting -/

def messageOrder : ThreadMessage → ThreadMessage → Ordering :=
  compareLex (compareOn (·.sortDate)) (compareLex (compareOn (·.subjectKey)) (compareOn (·.uid)))

instance : Std.TransCmp messageOrder :=
  inferInstanceAs (Std.TransCmp (compareLex _ (compareLex _ _)))

theorem order_thread (a b : RoseTree ThreadMessage) :
    (thread a).order (thread b) = messageOrder a.label b.label := by
  cases a with
  | node message branches =>
      cases b with
      | node other others =>
          rw [thread_node, thread_node]
          rfl

/-- A forest as the code sorts it: first the branches of each node, then the roots. -/
def sortedForest (trees : List (RoseTree ThreadMessage)) : List (RoseTree ThreadMessage) :=
  (trees.map (sorted (Before messageOrder))).insertionSort fun a b => Before messageOrder a.label b.label

theorem insertionSort_threads (trees : List (RoseTree ThreadMessage)) :
    (threads trees).insertionSort (fun a b => (a.order b).isLE) =
      threads (trees.insertionSort fun a b => Before messageOrder a.label b.label) := by
  rw [threads_eq, threads_eq]
  refine (List.map_insertionSort _ _ _ _ fun a _ b _ => ?_).symm
  rw [order_thread]

mutual
theorem sortThreadNode_thread : ∀ tree,
    sortThreadNode (thread tree) = thread (sorted (Before messageOrder) tree)
  | .node message branches => by
      rw [thread_node, sortThreadNode, sortThreadNodes_threads branches, insertionSort_threads,
        sorted, thread_node]
theorem sortThreadNodes_threads : ∀ trees,
    sortThreadNodes (threads trees) = threads (sortedBranches (Before messageOrder) trees)
  | [] => rfl
  | tree :: trees => by
      rw [threads, sortThreadNodes, sortedBranches, threads, sortThreadNode_thread tree,
        sortThreadNodes_threads trees]
end

theorem sort_threads (trees : List (RoseTree ThreadMessage)) :
    (sortThreadNodes (threads trees)).insertionSort (fun a b => (a.order b).isLE) =
      threads (sortedForest trees) := by
  rw [sortThreadNodes_threads, insertionSort_threads, sortedBranches_eq, sortedForest]

theorem perm_sortedForest (trees : List (RoseTree ThreadMessage)) :
    (sortedForest trees).Perm (trees.map (sorted (Before messageOrder))) :=
  List.perm_insertionSort ..

theorem mem_sortedForest {trees : List (RoseTree ThreadMessage)} {tree : RoseTree ThreadMessage} :
    tree ∈ sortedForest trees ↔ ∃ other ∈ trees, sorted (Before messageOrder) other = tree := by
  rw [(perm_sortedForest trees).mem_iff, List.mem_map]

theorem map_label_sortedForest (trees : List (RoseTree ThreadMessage)) :
    ((sortedForest trees).map RoseTree.label).Perm (trees.map RoseTree.label) := by
  refine ((perm_sortedForest trees).map _).trans ?_
  rw [map_label_sorted]

/-! ## Messages by their ids -/

def byId (messages : List ThreadMessage) (id : String) : Option ThreadMessage :=
  (messages.filter (·.messageId == some id)).getLast?

theorem nodeById_eq (messages : List ThreadMessage) (id : String) :
    nodeById messages id = (byId messages id).map ThreadMessage.leaf := rfl

theorem byId_some {messages : List ThreadMessage} {id : String} {message : ThreadMessage}
    (found : byId messages id = some message) : message ∈ messages ∧ message.messageId = some id := by
  have member := List.mem_of_getLast? found
  rw [List.mem_filter, beq_iff_eq] at member
  exact member

theorem byId_isSome {messages : List ThreadMessage} {id : String} {message : ThreadMessage}
    (member : message ∈ messages) (named : message.messageId = some id) :
    ∃ other, byId messages id = some other := by
  have nonempty : messages.filter (·.messageId == some id) ≠ [] :=
    List.ne_nil_of_mem (List.mem_filter.mpr ⟨member, by simp [named]⟩)
  exact ⟨_, List.getLast?_eq_some_getLast nonempty⟩

theorem mem_childIds {messages : List ThreadMessage} {id child : String}
    (member : child ∈ childIds messages id) : ∃ message ∈ messages,
      message.messageId = some child ∧ linkedParent messages message = some id := by
  obtain ⟨message, linked, named⟩ := List.mem_filterMap.mp member
  rw [List.mem_filter, beq_iff_eq] at linked
  exact ⟨message, linked.1, named, linked.2⟩

theorem mem_messageIds {messages : List ThreadMessage} {id : String} :
    id ∈ messageIds messages ↔ id ∈ messages.filterMap (·.messageId) :=
  Sorting.mem_sorted

def childMessages (messages : List ThreadMessage) (message : ThreadMessage) : List ThreadMessage :=
  message.messageId.toList.flatMap fun id => (childIds messages id).filterMap (byId messages)

/-! ## The trees that are built -/

theorem mapM_ok {α β γ : Type} (f : α → Except Panic γ) (g : β → γ) (related : α → β → Prop)
    (xs : List α) (each : ∀ x ∈ xs, ∃ y, f x = .ok (g y) ∧ related x y) :
    ∃ ys, xs.mapM f = .ok (ys.map g) ∧ List.Forall₂ related xs ys := by
  induction xs with
  | nil => exact ⟨[], rfl, .nil⟩
  | cons x xs ih =>
      obtain ⟨y, first, related⟩ := each x (List.mem_cons_self ..)
      obtain ⟨ys, others, all⟩ := ih fun other member => each other (List.mem_cons_of_mem _ member)
      refine ⟨y :: ys, ?_, .cons related all⟩
      rw [List.mapM_cons, first, others]
      rfl

theorem map_label_of_forall₂ {messages : List ThreadMessage} {ids : List String}
    {trees : List (RoseTree ThreadMessage)}
    (each : List.Forall₂ (fun id tree => byId messages id = some tree.label) ids trees) :
    trees.map RoseTree.label = ids.filterMap (byId messages) := by
  induction each with
  | nil => rfl
  | cons first _ ih => rw [List.map_cons, List.filterMap_cons_some first, ih]

theorem exists_of_mem_right {α β : Type} {related : α → β → Prop} {xs : List α} {ys : List β}
    (each : List.Forall₂ related xs ys) {y : β} (member : y ∈ ys) : ∃ x ∈ xs, related x y := by
  induction each with
  | nil => cases member
  | cons first _ ih =>
      rcases List.mem_cons.mp member with rfl | later
      · exact ⟨_, List.mem_cons_self .., first⟩
      · obtain ⟨x, inRest, here⟩ := ih later
        exact ⟨x, List.mem_cons_of_mem _ inRest, here⟩

theorem exists_of_mem_left {α β : Type} {related : α → β → Prop} {xs : List α} {ys : List β}
    (each : List.Forall₂ related xs ys) {x : α} (member : x ∈ xs) : ∃ y ∈ ys, related x y := by
  obtain ⟨y, inYs, here⟩ := exists_of_mem_right each.flip member
  exact ⟨y, inYs, here⟩

section Building
variable {messages : List ThreadMessage} {allowed : ThreadMessage → List ThreadMessage → Prop}
  {inv : List String → String → Prop}

/-- A tree is built for every id that is there: with the messages below its own or, within that tree,
without them. What it has below each message follows from what holds on the way there. -/
theorem buildThreadNode_tree
    (full : ∀ id message, byId messages id = some message → allowed message (childMessages messages message))
    (cut : ∀ visited id message, inv visited id → byId messages id = some message → id ∈ visited →
      allowed message [])
    (next : ∀ visited id child, inv visited id → id ∉ visited → child ∈ childIds messages id →
      inv (id :: visited) child) (visited : List String) (id : String) (message : ThreadMessage)
    (holds : inv visited id) (found : byId messages id = some message) :
    ∃ tree, buildThreadNode messages visited id = .ok (thread tree) ∧ tree.label = message ∧
      Shaped allowed tree ∧ tree.depth ≤ (unvisited messages visited).length + 1 ∧
      (id ∉ visited → tree.branches.map RoseTree.label = childMessages messages message) := by
  induction steps : (unvisited messages visited).length using Nat.strong_induction_on
    generalizing visited id message with
  | _ steps ih =>
      have known := nodeById_eq messages id
      rw [found, Option.map_some] at known
      rw [buildThreadNode]
      split
      · rename_i missing
        rw [known] at missing
        cases missing
      · rename_i node present
        obtain rfl : message.leaf = node := Option.some.inj (known.symm.trans present)
        split
        · rename_i seen
          have member : id ∈ visited := by simpa using seen
          refine ⟨.node message [], ?_, rfl, .node (cut _ _ _ holds found member) (by simp), ?_, ?_⟩
          · rw [thread_node]
            rfl
          · simp [RoseTree.depth, RoseTree.depthOf]
          · exact fun new => absurd member new
        · rename_i seen
          have new : id ∉ visited := by simpa using seen
          have fewer := unvisited_cons_lt (mem_messageIds_of_nodeById present) (by simpa using seen)
          obtain ⟨trees, built, each⟩ := mapM_ok (buildThreadNode messages (id :: visited)) thread
            (fun child tree => byId messages child = some tree.label ∧ Shaped allowed tree ∧
              tree.depth ≤ (unvisited messages (id :: visited)).length + 1) (childIds messages id)
            fun child isChild => by
              obtain ⟨other, inMessages, named, -⟩ := mem_childIds isChild
              obtain ⟨below, foundBelow⟩ := byId_isSome inMessages named
              obtain ⟨tree, built, label, shaped, depth, -⟩ := ih _ (steps ▸ fewer) (id :: visited) child
                below (next _ _ _ holds new isChild) foundBelow rfl
              exact ⟨tree, built, label ▸ foundBelow, shaped, depth⟩
          have labels : trees.map RoseTree.label = childMessages messages message := by
            rw [map_label_of_forall₂ (each.imp fun _ _ both => both.1), childMessages,
              (byId_some found).2]
            simp
          refine ⟨.node message trees, ?_, rfl, .node (labels ▸ full _ _ found) ?_, ?_, fun _ => labels⟩
          · rw [built, thread_node, threads_eq]
            rfl
          · intro tree member
            obtain ⟨child, -, -, shaped, -⟩ := exists_of_mem_right each member
            exact shaped
          · rw [RoseTree.depth, Nat.add_le_add_iff_right]
            refine (RoseTree.depthOf_le fun tree member => ?_).trans (steps ▸ fewer)
            obtain ⟨child, -, -, -, depth⟩ := exists_of_mem_right each member
            exact depth

def isRoot (messages : List ThreadMessage) (message : ThreadMessage) : Bool :=
  message.messageId.all fun id => !hasParent messages id

/-- The message whose node a message gets: the last one of its id. -/
def nodeMessage (messages : List ThreadMessage) (message : ThreadMessage) : ThreadMessage :=
  (message.messageId.bind (byId messages)).getD message

/-- The messages at the roots; without any, every id makes a tree. -/
def rootMessages (messages : List ThreadMessage) : List ThreadMessage :=
  if (messages.filter (isRoot messages)).isEmpty then (messageIds messages).filterMap (byId messages)
  else (messages.filter (isRoot messages)).map (nodeMessage messages)

/-- What a message makes: a tree if it is a root. -/
def RootOf (messages : List ThreadMessage) (message : ThreadMessage) : Option (RoseTree ThreadMessage) → Prop
  | none => isRoot messages message = false
  | some tree => isRoot messages message = true ∧ tree.label = nodeMessage messages message

theorem labels_of_roots {roots : List (Option (RoseTree ThreadMessage))} {listed : List ThreadMessage}
    (each : List.Forall₂ (RootOf messages) listed roots) :
    (roots.filterMap id).map RoseTree.label = (listed.filter (isRoot messages)).map (nodeMessage messages) := by
  induction each with
  | nil => rfl
  | @cons message root _ _ first _ ih =>
      cases root with
      | none =>
          have notRoot : isRoot messages message = false := first
          rw [List.filterMap_cons_none (f := id) rfl, List.filter_cons_of_neg (by simp [notRoot]), ih]
      | some tree =>
          rw [List.filterMap_cons_some (f := id) rfl, List.filter_cons_of_pos first.1, List.map_cons, List.map_cons,
            ih, first.2]

theorem filterMap_map_thread (roots : List (Option (RoseTree ThreadMessage))) :
    (roots.map (Option.map thread)).filterMap id = threads (roots.filterMap id) := by
  rw [threads_eq, List.filterMap_map, List.map_filterMap]
  rfl

theorem unvisited_nil (messages : List ThreadMessage) :
    unvisited messages [] = messages.filterMap (·.messageId) := by
  simp [unvisited]

/-- A tree at a root: below a message is what is put there, and it is no deeper than there are ids. -/
def Built (messages : List ThreadMessage) (allowed : ThreadMessage → List ThreadMessage → Prop)
    (tree : RoseTree ThreadMessage) : Prop :=
  Shaped allowed tree ∧ tree.depth ≤ (messages.filterMap (·.messageId)).length + 1 ∧
    tree.branches.map RoseTree.label = childMessages messages tree.label

theorem buildThreadNode_builds
    (full : ∀ id message, byId messages id = some message → allowed message (childMessages messages message))
    (cut : ∀ visited id message, inv visited id → byId messages id = some message → id ∈ visited →
      allowed message [])
    (next : ∀ visited id child, inv visited id → id ∉ visited → child ∈ childIds messages id →
      inv (id :: visited) child) (start : ∀ id, inv [] id)
    {id : String} {message : ThreadMessage} (found : byId messages id = some message) :
    ∃ tree, buildThreadNode messages [] id = .ok (thread tree) ∧ tree.label = message ∧
      Built messages allowed tree := by
  obtain ⟨tree, built, label, shaped, depth, below⟩ :=
    buildThreadNode_tree full cut next [] id message (start id) found
  rw [unvisited_nil] at depth
  exact ⟨tree, built, label, shaped, depth, label.symm ▸ below (by simp)⟩

theorem threadRoot_builds
    (build : ∀ id message, byId messages id = some message →
      ∃ tree, buildThreadNode messages [] id = .ok (thread tree) ∧ tree.label = message ∧
        Built messages allowed tree)
    {message : ThreadMessage} (member : message ∈ messages)
    (alone : message.messageId = none → allowed message []) :
    ∃ root, threadRoot messages message = .ok (root.map thread) ∧ RootOf messages message root ∧
      ∀ tree ∈ root, Built messages allowed tree := by
  cases named : message.messageId with
  | none =>
      refine ⟨some (.node message []), ?_, ⟨?_, ?_⟩, ?_⟩
      · rw [threadRoot, named, Option.map_some, thread_node]
        rfl
      · simp [isRoot, named]
      · simp [nodeMessage, named, RoseTree.label]
      · rintro _ ⟨⟩
        refine ⟨.node (alone named) (by simp), ?_, ?_⟩
        · simp [RoseTree.depth, RoseTree.depthOf]
        · simp [RoseTree.branches, RoseTree.label, childMessages, named]
  | some id =>
      cases below : hasParent messages id with
      | true =>
          refine ⟨none, ?_, ?_, by simp⟩
          · rw [threadRoot, named]
            simp [below, pure, Except.pure]
          · simp [RootOf, isRoot, named, below]
      | false =>
          obtain ⟨other, found⟩ := byId_isSome member named
          obtain ⟨tree, built, label, grown⟩ := build id other found
          refine ⟨some tree, ?_, ⟨?_, ?_⟩, ?_⟩
          · rw [threadRoot, named]
            simp [below, built, Functor.map, Except.map]
          · simp [isRoot, named, below]
          · simp [nodeMessage, named, found, label]
          · rintro _ ⟨⟩
            exact grown

variable (messages allowed inv) in
/-- The forest that the messages make: a tree for each root, which has below its root what is put
there, and is no deeper than there are ids. -/
theorem threadReferences_trees
    (full : ∀ id message, byId messages id = some message → allowed message (childMessages messages message))
    (cut : ∀ visited id message, inv visited id → byId messages id = some message → id ∈ visited →
      allowed message [])
    (next : ∀ visited id child, inv visited id → id ∉ visited → child ∈ childIds messages id →
      inv (id :: visited) child) (start : ∀ id, inv [] id)
    (alone : ∀ message ∈ messages, message.messageId = none → allowed message []) :
    ∃ trees, threadReferences messages = .ok (threads (sortedForest trees)) ∧
      trees.map RoseTree.label = rootMessages messages ∧ ∀ tree ∈ trees, Built messages allowed tree := by
  have build := fun id message => @buildThreadNode_builds _ _ _ full cut next start id message
  obtain ⟨roots, made, each⟩ := mapM_ok (threadRoot messages) (Option.map thread)
    (fun message root => RootOf messages message root ∧ ∀ tree ∈ root, Built messages allowed tree) messages
    fun message member => threadRoot_builds build member (alone message member)
  have labels := labels_of_roots (each.imp fun _ _ both => both.1)
  have grown : ∀ tree ∈ roots.filterMap id, Built messages allowed tree := by
    intro tree member
    obtain ⟨root, isRoot, isTree⟩ := List.mem_filterMap.mp member
    obtain ⟨message, -, -, all⟩ := exists_of_mem_right each isRoot
    exact all tree isTree
  unfold threadReferences rootMessages
  rw [made]
  change ∃ trees, (do
    let roots ← if ((roots.map (Option.map thread)).filterMap id).isEmpty then
        (messageIds messages).mapM (buildThreadNode messages [])
      else pure ((roots.map (Option.map thread)).filterMap id)
    pure ((sortThreadNodes roots).insertionSort fun (a b : ThreadNode) => (a.order b).isLE)) = _ ∧ _
  rw [filterMap_map_thread]
  have empty : (threads (roots.filterMap id)).isEmpty = (messages.filter (isRoot messages)).isEmpty := by
    rw [threads_eq, List.isEmpty_map, ← List.isEmpty_map (f := RoseTree.label), labels, List.isEmpty_map]
  rw [empty]
  cases none : (messages.filter (isRoot messages)).isEmpty with
  | false =>
      refine ⟨roots.filterMap id, ?_, labels, grown⟩
      exact congrArg Except.ok (sort_threads _)
  | true =>
      obtain ⟨trees, made, each⟩ := mapM_ok (buildThreadNode messages []) thread
        (fun child tree => byId messages child = some tree.label ∧ Built messages allowed tree)
        (messageIds messages) fun id listed => by
          obtain ⟨message, member, named⟩ := List.mem_filterMap.mp (mem_messageIds.mp listed)
          obtain ⟨other, found⟩ := byId_isSome member named
          obtain ⟨tree, built, label, grown⟩ := build id other found
          exact ⟨tree, built, label ▸ found, grown⟩
      refine ⟨trees, ?_, map_label_of_forall₂ (each.imp fun _ _ both => both.1), ?_⟩
      · rw [if_pos rfl, made]
        rw [← threads_eq]
        exact congrArg Except.ok (sort_threads _)
      · intro tree member
        obtain ⟨id, -, -, grown⟩ := exists_of_mem_right each member
        exact grown

end Building

/-! ## The relation between messages -/

def DistinctIds (messages : List ThreadMessage) : Prop := (messages.filterMap (·.messageId)).Nodup

/-- The other message that the last entry of the references names, or else the last one of the
messages it replies to. -/
def referenced (messages : List ThreadMessage) (message : ThreadMessage) : Option ThreadMessage :=
  message.parent.bind fun entry => messages.find? fun other =>
    other.messageId == some entry && other != message

/-- The parent of a message, which a message without an id does not have. -/
def parentOf (messages : List ThreadMessage) (message : ThreadMessage) : Option ThreadMessage :=
  if message.messageId.isSome then referenced messages message else none

theorem referenced_some {messages : List ThreadMessage} {message other : ThreadMessage}
    (found : referenced messages message = some other) :
    other ∈ messages ∧ other ≠ message ∧ other.messageId.isSome ∧ other.messageId = message.parent := by
  obtain ⟨entry, last, isOther⟩ := Option.bind_eq_some_iff.mp found
  have holds := List.find?_some isOther
  rw [Bool.and_eq_true, beq_iff_eq, bne_iff_ne] at holds
  exact ⟨List.mem_of_find?_eq_some isOther, holds.2, by simp [holds.1], by rw [holds.1, last]⟩

theorem parentOf_some {messages : List ThreadMessage} {message parent : ThreadMessage}
    (found : parentOf messages message = some parent) :
    message.messageId.isSome ∧ parent ∈ messages ∧ parent ≠ message ∧
      parent.messageId.isSome ∧ parent.messageId = message.parent := by
  unfold parentOf at found
  split at found
  · rename_i named
    exact ⟨named, referenced_some found⟩
  · cases found

theorem eq_of_messageId {messages : List ThreadMessage} (distinct : DistinctIds messages)
    {message other : ThreadMessage} (member : message ∈ messages) (isOther : other ∈ messages)
    {id : String} (named : message.messageId = some id) (same : other.messageId = some id) :
    message = other := by
  unfold DistinctIds at distinct
  induction messages with
  | nil => cases member
  | cons first messages ih =>
      have later : ∀ message ∈ messages, message.messageId = some id → first.messageId ≠ some id := by
        intro message member named isFirst
        rw [List.filterMap_cons_some isFirst, List.nodup_cons] at distinct
        exact distinct.1 (List.mem_filterMap.mpr ⟨message, member, named⟩)
      rcases List.mem_cons.mp member with rfl | inRest
      · rcases List.mem_cons.mp isOther with rfl | otherInRest
        · rfl
        · exact absurd named (later other otherInRest same)
      · rcases List.mem_cons.mp isOther with rfl | otherInRest
        · exact absurd same (later message inRest named)
        · refine ih ?_ inRest otherInRest
          exact distinct.sublist ((List.sublist_cons_self ..).filterMap _)

section Distinct
variable {messages : List ThreadMessage} (distinct : DistinctIds messages)
include distinct

theorem byId_eq {message : ThreadMessage} (member : message ∈ messages) {id : String}
    (named : message.messageId = some id) : byId messages id = some message := by
  obtain ⟨other, found⟩ := byId_isSome member named
  obtain ⟨isOther, same⟩ := byId_some found
  rw [found, eq_of_messageId distinct member isOther named same]

theorem linkedParent_eq {message : ThreadMessage} (member : message ∈ messages)
    (named : message.messageId.isSome) :
    linkedParent messages message = (parentOf messages message).bind (·.messageId) := by
  obtain ⟨id, named⟩ := Option.isSome_iff_exists.mp named
  rw [parentOf, named, Option.isSome_some, if_pos rfl, linkedParent, referenced]
  cases last : message.parent with
  | none => rfl
  | some entry =>
      rw [Option.bind_some]
      by_cases own : entry = id
      · subst own
        have nobody : (messages.find? fun other =>
            other.messageId == some entry && other != message) = none := by
          rw [List.find?_eq_none]
          intro other isOther holds
          rw [Bool.and_eq_true, beq_iff_eq, bne_iff_ne] at holds
          exact holds.2 (eq_of_messageId distinct isOther member holds.1 named)
        rw [nobody, Option.filter_some, named]
        simp
      · have apart : (some entry != some id) = true := by simpa using own
        rw [Option.filter_some, named, apart, Bool.true_and, nodeById_eq, Option.isSome_map]
        cases found : byId messages entry with
        | none =>
            have nobody : (messages.find? fun other =>
                other.messageId == some entry && other != message) = none := by
              rw [List.find?_eq_none]
              intro other isOther holds
              rw [Bool.and_eq_true, beq_iff_eq] at holds
              rw [byId_eq distinct isOther holds.1] at found
              cases found
            rw [nobody]
            rfl
        | some other =>
            obtain ⟨isOther, same⟩ := byId_some found
            have there : (messages.find? fun other =>
                other.messageId == some entry && other != message).isSome := by
              rw [List.find?_isSome]
              refine ⟨other, isOther, ?_⟩
              rw [Bool.and_eq_true, beq_iff_eq, bne_iff_ne]
              refine ⟨same, ?_⟩
              rintro rfl
              exact own (Option.some.inj (same.symm.trans named))
            obtain ⟨first, isFirst⟩ := Option.isSome_iff_exists.mp there
            have holds := List.find?_some isFirst
            rw [Bool.and_eq_true, beq_iff_eq] at holds
            rw [isFirst, Option.bind_some, holds.1]
            rfl

theorem linkedParent_some_iff {message parent : ThreadMessage} (member : message ∈ messages)
    (named : message.messageId.isSome) (isParent : parent ∈ messages) {id : String}
    (parentNamed : parent.messageId = some id) :
    linkedParent messages message = some id ↔ parentOf messages message = some parent := by
  rw [linkedParent_eq distinct member named, Option.bind_eq_some_iff]
  constructor
  · rintro ⟨other, found, same⟩
    rw [found, eq_of_messageId distinct (parentOf_some found).2.1 isParent same parentNamed]
  · intro found
    exact ⟨parent, found, parentNamed⟩

theorem childMessages_eq {message : ThreadMessage} (member : message ∈ messages) :
    childMessages messages message = childrenOf messages (parentOf messages) message := by
  unfold childMessages childrenOf
  cases named : message.messageId with
  | none =>
      symm
      rw [Option.toList_none, List.flatMap_nil, List.filter_eq_nil_iff]
      intro child _ isChild
      have holds := (parentOf_some (of_decide_eq_true isChild)).2.2.2.1
      simp [named] at holds
  | some id =>
      rw [Option.toList_some, List.flatMap_singleton, childIds, List.filterMap_filterMap,
        List.filterMap_filter, ← List.filterMap_eq_filter]
      refine List.filterMap_congr fun child isChild => ?_
      cases childNamed : child.messageId with
      | none =>
          have noParent : parentOf messages child = none := by
            rw [parentOf, childNamed]
            rfl
          simp [Option.guard, noParent]
      | some childId =>
          rw [Option.bind_some, byId_eq distinct isChild childNamed]
          have same := linkedParent_some_iff distinct isChild (by simp [childNamed]) member named
          by_cases linked : linkedParent messages child = some id
          · simp [linked, same.mp linked, Option.guard]
          · have notParent := mt same.mpr linked
            simp [linked, notParent, Option.guard]

theorem isRoot_eq {message : ThreadMessage} (member : message ∈ messages) :
    isRoot messages message = (parentOf messages message).isNone := by
  cases named : message.messageId with
  | none =>
      rw [isRoot, parentOf, named]
      rfl
  | some id =>
      have linked := linkedParent_eq distinct member (by simp [named])
      have found : hasParent messages id = (linkedParent messages message).isSome := by
        rw [hasParent, Bool.eq_iff_iff, List.any_eq_true]
        constructor
        · rintro ⟨other, isOther, holds⟩
          rw [Bool.and_eq_true, beq_iff_eq] at holds
          rw [eq_of_messageId distinct member isOther named holds.1]
          exact holds.2
        · intro some
          exact ⟨message, member, by simp [named, some]⟩
      rw [isRoot, named, Option.all_some, found, linked]
      cases above : parentOf messages message with
      | none => rfl
      | some parent =>
          obtain ⟨parentId, parentNamed⟩ :=
            Option.isSome_iff_exists.mp (parentOf_some above).2.2.2.1
          rw [Option.bind_some, parentNamed]
          rfl

theorem nodeMessage_eq {message : ThreadMessage} (member : message ∈ messages) :
    nodeMessage messages message = message := by
  unfold nodeMessage
  cases named : message.messageId with
  | none => rfl
  | some id =>
      rw [Option.bind_some, byId_eq distinct member named]
      rfl

theorem roots_eq : messages.filter (isRoot messages) = rootsOf messages (parentOf messages) :=
  List.filter_congr fun _ member => isRoot_eq distinct member

theorem rootMessages_eq (acyclic : Acyclic (parentOf messages)) :
    rootMessages messages = rootsOf messages (parentOf messages) := by
  unfold rootMessages
  rw [roots_eq distinct]
  cases none : (rootsOf messages (parentOf messages)).isEmpty with
  | false =>
      rw [if_neg (by decide)]
      have same : ∀ message ∈ rootsOf messages (parentOf messages),
          nodeMessage messages message = id message := fun message member =>
        nodeMessage_eq distinct (mem_rootsOf.mp member).1
      rw [List.map_congr_left same, List.map_id]
  | true =>
      rw [if_pos rfl, List.isEmpty_iff.mp none]
      have noRoot : ∀ message, message ∉ messages := by
        intro message
        induction message using acyclic.induction fun _ _ above => (parentOf_some above).2.1 with
        | _ message ih =>
            intro member
            cases above : parentOf messages message with
            | none =>
                have root := mem_rootsOf.mpr ⟨member, above⟩
                rw [List.isEmpty_iff.mp none] at root
                cases root
            | some parent => exact ih parent above (parentOf_some above).2.1
      rw [List.eq_nil_iff_forall_not_mem.mpr noRoot]
      rfl

/-- Without cycles, every message has the messages below it that have it as their parent. -/
theorem threadReferences_grown (acyclic : Acyclic (parentOf messages)) :
    ∃ trees, threadReferences messages = .ok (threads (sortedForest trees)) ∧
      trees.map RoseTree.label = rootsOf messages (parentOf messages) ∧
      ∀ tree ∈ trees, Grown (childrenOf messages (parentOf messages)) tree := by
  obtain ⟨trees, built, labels, each⟩ := threadReferences_trees
    messages (fun message below => below.Perm (childrenOf messages (parentOf messages) message))
    (fun visited id => ∀ other ∈ visited, ∃ message above,
      byId messages id = some message ∧ byId messages other = some above ∧
        Relation.TransGen (fun x p => parentOf messages x = some p) message above)
    (fun id message found => by rw [childMessages_eq distinct (byId_some found).1])
    (fun visited id message holds found seen => by
      obtain ⟨_, above, same, isAbove, chain⟩ := holds id seen
      obtain rfl := Option.some.inj (found.symm.trans same)
      obtain rfl := Option.some.inj (found.symm.trans isAbove)
      exact absurd chain (acyclic _))
    (fun visited id child holds _ isChild => by
      obtain ⟨message, member, named, linked⟩ := mem_childIds isChild
      have linkedTo := linkedParent_eq distinct member (by simp [named])
      obtain ⟨parent, above, parentNamed⟩ := Option.bind_eq_some_iff.mp (linkedTo.symm.trans linked)
      have found := byId_eq distinct member named
      have parentFound := byId_eq distinct (parentOf_some above).2.1 parentNamed
      intro other seen
      rcases List.mem_cons.mp seen with rfl | earlier
      · exact ⟨message, parent, found, parentFound, .single above⟩
      · obtain ⟨_, top, same, isTop, chain⟩ := holds other earlier
        obtain rfl := Option.some.inj (parentFound.symm.trans same)
        exact ⟨message, top, found, isTop, chain.head above⟩)
    (fun _ _ member => by cases member)
    (fun message member unnamed => by
      rw [← childMessages_eq distinct member, childMessages, unnamed]
      exact .nil)
  exact ⟨trees, built, labels.trans (rootMessages_eq distinct acyclic), fun tree member => (each tree member).1⟩

end Distinct

/-! ## The forest -/

theorem labels_sortedForest (trees : List (RoseTree ThreadMessage)) :
    (RoseTree.labelsOf (sortedForest trees)).Perm (RoseTree.labelsOf trees) :=
  (labelsOf_perm (perm_sortedForest trees)).trans (labelsOf_map_perm fun tree _ => labels_sorted tree)

theorem depth_sortedForest {trees : List (RoseTree ThreadMessage)} {bound : Nat}
    (each : ∀ tree ∈ trees, tree.depth ≤ bound) : depthOf (threads (sortedForest trees)) ≤ bound := by
  rw [depthOf_threads]
  refine RoseTree.depthOf_le fun tree member => ?_
  obtain ⟨other, isTree, rfl⟩ := mem_sortedForest.mp member
  exact (depth_sorted other).trans (each other isTree)

/-- A forest is always returned. No path of it is longer than there are ids, and one more for a message
that is above itself. -/
theorem threadReferences_total (messages : List ThreadMessage) :
    ∃ forest, threadReferences messages = .ok forest ∧
      depthOf forest ≤ (messages.filterMap (·.messageId)).length + 1 := by
  obtain ⟨trees, built, -, each⟩ := threadReferences_trees messages
    (fun _ _ => True) (fun _ _ => True) (fun _ _ _ => trivial) (fun _ _ _ _ _ _ => trivial)
    (fun _ _ _ _ _ _ => trivial) (fun _ => trivial) (fun _ _ _ => trivial)
  exact ⟨_, built, depth_sortedForest fun tree member => (each tree member).2.1⟩

/-- Messages without repeated ids and without cycles make the forest of their relation: a message is below
its parent, every other message is a root, and siblings are in the order of date, subject and UID. -/
theorem references_make_forest (messages : List ThreadMessage) (distinct : DistinctIds messages)
    (acyclic : Acyclic (parentOf messages)) :
    ∃ forest, threadReferences messages = .ok (threads forest) ∧
      (forest.map RoseTree.label).Perm (rootsOf messages (parentOf messages)) ∧
      (∀ tree ∈ forest, Grown (childrenOf messages (parentOf messages)) tree) ∧
      (forest.map RoseTree.label).Pairwise (Before messageOrder) ∧
      ∀ tree ∈ forest, Sorted (Before messageOrder) tree := by
  obtain ⟨trees, built, labels, grown⟩ := threadReferences_grown distinct acyclic
  refine ⟨sortedForest trees, built, ?_, ?_, pairwise_map_label (r := Before messageOrder) _, ?_⟩
  · exact labels ▸ map_label_sortedForest trees
  · intro tree member
    obtain ⟨other, isTree, rfl⟩ := mem_sortedForest.mp member
    exact (grown other isTree).sorted
  · intro tree member
    obtain ⟨other, -, rfl⟩ := mem_sortedForest.mp member
    exact sorted_sorted other

/-- A message, and a reply to it that may have an id. -/
def conversation (replyId : Option String) : List ThreadMessage :=
  [{ uid := 1, sortDate := 0, subjectKey := "a", messageId := some "a", references := [], inReplyTo := [] },
    { uid := 2, sortDate := 1, subjectKey := "a", messageId := replyId, references := ["a"], inReplyTo := [] }]

theorem conversation_acyclic : Acyclic (parentOf (conversation (some "b"))) := by
  refine acyclic_of_roots (conversation (some "b")) (fun _ _ above => (parentOf_some above).2.1) ?_
  intro message member
  simp only [conversation, List.mem_cons, List.not_mem_nil, or_false] at member
  rcases member with rfl | rfl
  · exact ⟨_, .refl, by decide⟩
  · exact ⟨(conversation (some "b"))[0], .single (by decide), by decide⟩

theorem references_make_forest_reply :
    ∃ forest, threadReferences (conversation (some "b")) = .ok (threads forest) ∧
      (forest.map RoseTree.label).Perm
        (rootsOf (conversation (some "b")) (parentOf (conversation (some "b")))) ∧
      (∀ tree ∈ forest,
        Grown (childrenOf (conversation (some "b")) (parentOf (conversation (some "b")))) tree) ∧
      (forest.map RoseTree.label).Pairwise (Before messageOrder) ∧
      ∀ tree ∈ forest, Sorted (Before messageOrder) tree :=
  references_make_forest _ (by unfold DistinctIds; decide) conversation_acyclic

/-- A reply without an id is a root although its references name a message. -/
theorem nameless_reply_is_root :
    DistinctIds (conversation none) ∧ Acyclic (referenced (conversation none)) ∧
      ¬ ∃ forest, threadReferences (conversation none) = .ok (threads forest) ∧
        (forest.map RoseTree.label).Perm
          (rootsOf (conversation none) (referenced (conversation none))) := by
  refine ⟨by unfold DistinctIds; decide, ?_, ?_⟩
  · refine acyclic_of_roots (conversation none) (fun _ _ above => (referenced_some above).1) ?_
    intro message member
    simp only [conversation, List.mem_cons, List.not_mem_nil, or_false] at member
    rcases member with rfl | rfl
    · exact ⟨_, .refl, by decide⟩
    · exact ⟨(conversation none)[0], .single (by decide), by decide⟩
  · rintro ⟨forest, built, roots⟩
    have two : (threadReferences (conversation none)).map List.length = .ok 2 := by decide +kernel
    have one : (rootsOf (conversation none) (referenced (conversation none))).length = 1 := by decide
    rw [built] at two
    have length := roots.length_eq
    rw [List.length_map, one] at length
    rw [threads_eq] at two
    simp [Except.map, length] at two

/-! ## Every message once -/

theorem count_uid {messages carried : List ThreadMessage} (uids : (messages.map (·.uid)).Nodup)
    (listed : ∀ message ∈ carried, message ∈ messages) {message : ThreadMessage}
    (member : message ∈ messages) : (carried.map (·.uid)).count message.uid = carried.count message := by
  rw [List.count, List.countP_map, List.count]
  refine List.countP_congr fun other isCarried => ?_
  rw [Function.comp_apply, beq_iff_eq, beq_iff_eq]
  constructor
  · exact fun same => List.inj_on_of_nodup_map uids (listed other isCarried) member same
  · exact fun same => same ▸ rfl

/-- Where no id is there twice and no message is above itself, every message is in the forest once. -/
theorem threaded_once {messages : List ThreadMessage} (uids : (messages.map (·.uid)).Nodup)
    (distinct : DistinctIds messages) (acyclic : Acyclic (parentOf messages)) :
    ∃ forest, threadReferences messages = .ok forest ∧
      ∀ message ∈ messages, (uidsOf forest).count message.uid = 1 := by
  obtain ⟨trees, built, labels, grown⟩ := threadReferences_grown distinct acyclic
  have carried : (RoseTree.labelsOf (sortedForest trees)).Perm messages :=
    (labels_sortedForest trees).trans (labels_perm uids.of_map (fun _ _ above => (parentOf_some above).2.1)
      acyclic (labels ▸ .refl _) grown)
  refine ⟨_, built, fun message member => ?_⟩
  rw [uidsOf_threads, count_uid uids (fun _ inForest => carried.subset inForest) member,
    carried.count_eq]
  exact List.count_eq_one_of_mem uids.of_map member

section Once
variable {messages : List ThreadMessage} {trees : List (RoseTree ThreadMessage)}

theorem distinct_of_found (distinct : messages.Nodup)
    (found : ∀ message ∈ messages, ∀ id, message.messageId = some id → byId messages id = some message) :
    DistinctIds messages := by
  unfold DistinctIds
  rw [List.Nodup, List.pairwise_filterMap]
  refine List.Pairwise.imp_of_mem ?_ distinct
  rintro message other member isOther apart id named _ otherNamed rfl
  have same := (found message member id named).symm.trans (found other isOther id otherNamed)
  exact apart (Option.some.inj same)

theorem acyclic_of_once (distinct : DistinctIds messages)
    (labels : trees.map RoseTree.label = rootMessages messages)
    (shaped : ∀ tree ∈ trees, Shaped (fun message below => message ∈ messages ∧
      ∀ child ∈ below, child ∈ childMessages messages message) tree)
    (branches : ∀ tree ∈ trees, tree.branches.map RoseTree.label = childMessages messages tree.label)
    (once : ∀ message ∈ messages, (RoseTree.labelsOf trees).count message = 1) :
    Acyclic (parentOf messages) := by
  intro message cycle
  have member : message ∈ messages := by
    obtain ⟨child, -, above⟩ := Relation.TransGen.tail'_iff.mp cycle
    exact (parentOf_some above).2.1
  obtain ⟨parent, isParent⟩ := parent_of_cycle cycle .refl
  obtain ⟨named, parentIn, apart, parentNamed, -⟩ := parentOf_some isParent
  unfold rootMessages at labels
  cases none : (messages.filter (isRoot messages)).isEmpty with
  | false =>
      -- the root above a cycle would have a parent
      rw [none, if_neg (by decide)] at labels
      have carried : message ∈ RoseTree.labelsOf trees :=
        List.count_pos_iff.mp (by rw [once message member]; exact Nat.one_pos)
      obtain ⟨tree, inTrees, inTree⟩ := RoseTree.mem_labelsOf.mp carried
      have reaches := reaches_of_mem_labels (fun x p => parentOf messages x = some p)
        (fun label below allowed child isBelow => by
          have isChild := allowed.2 child isBelow
          rw [childMessages_eq distinct allowed.1] at isChild
          exact (mem_childrenOf.mp isChild).2) (shaped tree inTrees) message inTree
      obtain ⟨above, isAbove⟩ := parent_of_cycle cycle reaches
      have root : tree.label ∈ (messages.filter (isRoot messages)).map (nodeMessage messages) :=
        labels ▸ List.mem_map_of_mem inTrees
      obtain ⟨first, isFirst, same⟩ := List.mem_map.mp root
      rw [roots_eq distinct, mem_rootsOf] at isFirst
      rw [← same, nodeMessage_eq distinct isFirst.1, isFirst.2] at isAbove
      cases isAbove
  | true =>
      -- without roots a message has its own tree, and it is in the tree of its parent
      rw [none, if_pos rfl] at labels
      have treeOf : ∀ item ∈ messages, item.messageId.isSome → ∃ tree ∈ trees, tree.label = item := by
        intro item inMessages hasId
        obtain ⟨id, itemNamed⟩ := Option.isSome_iff_exists.mp hasId
        have listed : item ∈ (messageIds messages).filterMap (byId messages) :=
          List.mem_filterMap.mpr ⟨id, mem_messageIds.mpr (List.mem_filterMap.mpr ⟨item, inMessages, itemNamed⟩),
            byId_eq distinct inMessages itemNamed⟩
        rw [← labels] at listed
        exact List.mem_map.mp listed
      obtain ⟨own, ownTree, ownLabel⟩ := treeOf message member named
      obtain ⟨other, otherTree, otherLabel⟩ := treeOf parent parentIn parentNamed
      have below : message ∈ other.branches.map RoseTree.label := by
        rw [branches other otherTree, otherLabel, childMessages_eq distinct parentIn, mem_childrenOf]
        exact ⟨member, isParent⟩
      obtain ⟨branch, isBranch, isMessage⟩ := List.mem_map.mp below
      have twice := two_le_count ownTree otherTree (by rintro rfl; exact apart (otherLabel.symm.trans ownLabel))
        (ownLabel ▸ RoseTree.label_mem_labels own)
        (RoseTree.mem_labels_of_branch isBranch (isMessage ▸ RoseTree.label_mem_labels branch))
      rw [once message member] at twice
      exact absurd twice (by decide)

end Once

/-- Every message is in the forest once exactly where no id is there twice and no message is above itself. -/
theorem references_once_iff (messages : List ThreadMessage) (uids : (messages.map (·.uid)).Nodup) :
    (∃ forest, threadReferences messages = .ok forest ∧
      ∀ message ∈ messages, (uidsOf forest).count message.uid = 1) ↔
    DistinctIds messages ∧ Acyclic (parentOf messages) := by
  constructor
  · rintro ⟨forest, returned, once⟩
    obtain ⟨trees, built, labels, each⟩ := threadReferences_trees messages
      (fun message below => (message ∈ messages ∧
          ∀ id, message.messageId = some id → byId messages id = some message) ∧
        ∀ child ∈ below, child ∈ childMessages messages message)
      (fun _ _ => True)
      (fun id message found => by
        refine ⟨⟨(byId_some found).1, fun other named => ?_⟩, fun _ isBelow => isBelow⟩
        rw [(byId_some found).2, Option.some.injEq] at named
        exact named ▸ found)
      (fun _ id message _ found _ => by
        refine ⟨⟨(byId_some found).1, fun other named => ?_⟩, fun _ isBelow => by cases isBelow⟩
        rw [(byId_some found).2, Option.some.injEq] at named
        exact named ▸ found)
      (fun _ _ _ _ _ _ => trivial) (fun _ => trivial)
      (fun message member unnamed => by
        refine ⟨⟨member, fun other named => ?_⟩, fun _ isBelow => by cases isBelow⟩
        rw [unnamed] at named
        cases named)
    obtain rfl : forest = threads (sortedForest trees) := Except.ok.inj (returned.symm.trans built)
    have allowed : ∀ message ∈ RoseTree.labelsOf trees, message ∈ messages ∧
        ∀ id, message.messageId = some id → byId messages id = some message := by
      intro message carried
      obtain ⟨tree, inTrees, inTree⟩ := RoseTree.mem_labelsOf.mp carried
      obtain ⟨below, holds⟩ := (each tree inTrees).1.of_mem_labels message inTree
      exact holds.1
    have counted : ∀ message ∈ messages, (RoseTree.labelsOf trees).count message = 1 := by
      intro message member
      have sameCount := once message member
      rw [uidsOf_threads, ((labels_sortedForest trees).map _).count_eq,
        count_uid uids (fun other carried => (allowed other carried).1) member] at sameCount
      exact sameCount
    have distinct : DistinctIds messages := by
      refine distinct_of_found uids.of_map fun message member => ?_
      refine (allowed message (List.count_pos_iff.mp ?_)).2
      rw [counted message member]
      exact Nat.one_pos
    refine ⟨distinct, acyclic_of_once distinct labels (fun tree inTrees => ?_)
      (fun tree inTrees => (each tree inTrees).2.2) counted⟩
    exact (each tree inTrees).1.mono fun _ _ holds => ⟨holds.1.1, holds.2⟩
  · rintro ⟨distinct, acyclic⟩
    exact threaded_once uids distinct acyclic

theorem references_once_iff_reply :
    (∃ forest, threadReferences (conversation (some "b")) = .ok forest ∧
      ∀ message ∈ conversation (some "b"), (uidsOf forest).count message.uid = 1) ↔
    DistinctIds (conversation (some "b")) ∧ Acyclic (parentOf (conversation (some "b"))) :=
  references_once_iff _ (by decide)

/-- Of two messages with one id the last is in the forest twice, and the first is not in it. -/
theorem repeated_id_loses_message :
    ((conversation (some "a")).map (·.uid)).Nodup ∧
      ¬ ∃ forest, threadReferences (conversation (some "a")) = .ok forest ∧
        ∀ message ∈ conversation (some "a"), (uidsOf forest).count message.uid = 1 := by
  refine ⟨by decide, ?_⟩
  rintro ⟨forest, returned, once⟩
  have uids : (threadReferences (conversation (some "a"))).map uidsOf = .ok [2, 2] := by decide +kernel
  rw [returned] at uids
  have first := once _ (List.mem_cons_self ..)
  rw [Except.ok.inj uids] at first
  exact absurd first (by decide)

end ImapCache.Threads
