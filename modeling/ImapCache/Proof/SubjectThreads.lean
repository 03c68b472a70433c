import Mathlib
import ImapCache.Model.Sample
import ImapCache.Lib.Grouping
import ImapCache.Proof.ReferenceThreads

/-!
# Threads by subject

`thread_ordered_subject` sorts the messages by their subjects and makes a thread of each run of equal
subjects, with the message that comes first by date and UID above the others.
-/

namespace ImapCache.Threads
open Search Lib Orderings Grouping

/-! ## Subjects without Re: and Fwd: -/

theorem utf8Size_toLower (c : Char) : c.toLower.utf8Size = c.utf8Size := by
  by_cases upper : c.isUpper
  · have bounds : 65 ≤ c.val ∧ c.val ≤ 90 := by simpa [Char.isUpper] using upper
    have ascii : c.toLower.val = c.val + 32 := by
      simp [Char.toLower, bounds]
    have one : c.utf8Size = 1 := Char.utf8Size_eq_one_iff.mpr (UInt32.le_trans bounds.2 (by decide : (90 : UInt32) ≤ 127))
    rw [one, Char.utf8Size_eq_one_iff, ascii]
    obtain ⟨low, high⟩ := bounds
    rw [UInt32.le_iff_toNat_le] at *
    rw [UInt32.toNat_add]
    simp at *
    omega
  · rw [Char.toLower_eq_of_not_isUpper upper]

theorem byteLength_map_toLower (text : List Char) :
    Slice.byteLength (text.map Char.toLower) = Slice.byteLength text := by
  rw [Slice.byteLength, Slice.byteLength, List.map_map]
  exact congrArg List.sum (List.map_congr_left fun c _ => utf8Size_toLower c)

theorem stripThreadSubjectPrefix_ok (value : List Char) :
    ∃ stripped, stripThreadSubjectPrefix value = .ok stripped := by
  unfold stripThreadSubjectPrefix
  cases found : ["re:", "fwd:", "fw:"].findSome? fun head =>
      stripPrefix head.toList (value.map Char.toLower) with
  | none => exact ⟨none, by simp only [found]; rfl⟩
  | some stripped =>
      obtain ⟨head, -, isStripped⟩ := List.exists_of_findSome?_eq_some found
      unfold stripPrefix at isStripped
      split at isStripped
      · rename_i starts
        obtain ⟨rest, lower⟩ := List.isPrefixOf_iff_prefix.mp starts
        rw [← lower, List.drop_left, Option.some.injEq] at isStripped
        subst isStripped
        obtain ⟨before, after, rfl, -, rfl⟩ := List.map_eq_append_iff.mp lower.symm
        have offset : Slice.byteLength (before ++ after) - Slice.byteLength (after.map Char.toLower) =
            Slice.byteLength before := by
          rw [byteLength_map_toLower, Slice.byteLength_append, Nat.add_sub_cancel]
        refine ⟨some (trimStart after), ?_⟩
        simp only [found, offset, Protocol.textFrom, Slice.dropBytes_append]
        rfl
      · cases isStripped

theorem stripThreadSubject_ok (fuel : Nat) (value : List Char) :
    ∃ stripped, stripThreadSubject fuel value = .ok stripped := by
  induction fuel generalizing value with
  | zero => exact ⟨value, rfl⟩
  | succ fuel ih =>
      obtain ⟨stripped, once⟩ := stripThreadSubjectPrefix_ok value
      rw [stripThreadSubject, once]
      cases stripped with
      | none => exact ⟨value, rfl⟩
      | some candidate =>
          by_cases same : candidate = value
          · exact ⟨value, by simp [bind, Except.bind, same, pure, Except.pure]⟩
          · obtain ⟨rest, others⟩ := ih (trimStart candidate)
            exact ⟨rest, by simp [bind, Except.bind, same, others]⟩

def subjectKey (view : MailboxMessageView) : String :=
  match normalizeThreadSubject view.subject with
  | .ok key => key
  | .error _ => ""

theorem normalizeThreadSubject_ok (view : MailboxMessageView) :
    normalizeThreadSubject view.subject = .ok (subjectKey view) := by
  have total : ∃ key, normalizeThreadSubject view.subject = .ok key := by
    let value := trim (view.subject.getD "").toList
    obtain ⟨stripped, done⟩ := stripThreadSubject_ok value.length value
    refine ⟨toAsciiLowercase (String.ofList stripped), ?_⟩
    change (stripThreadSubject value.length value).bind _ = _
    rw [done]
    rfl
  obtain ⟨key, ok⟩ := total
  rw [subjectKey, ok]

/-! ## Groups of one subject -/

def keyedViews (views : List MailboxMessageView) : List KeyedView :=
  views.map fun view => (subjectKey view, view)

def subjectGroups (views : List MailboxMessageView) : List (List KeyedView) :=
  (((keyedViews views).insertionSort fun a b => (keyedOrder a b).isLE).splitBy fun a b =>
    a.1 == b.1).insertionSort fun a b => groupOrder a b

theorem threadOrderedSubject_eq (views : List MailboxMessageView) :
    threadOrderedSubject views = (subjectGroups views).mapM threadGroup := by
  have keyed : (views.mapM fun view => do
      let key ← normalizeThreadSubject view.subject
      pure (key, view)) = Except.ok (keyedViews views) := by
    unfold keyedViews
    induction views with
    | nil => rfl
    | cons view views ih =>
        rw [List.mapM_cons, ih, normalizeThreadSubject_ok]
        rfl
  unfold threadOrderedSubject
  rw [keyed]
  rfl

instance : Std.TransCmp keyedOrder :=
  inferInstanceAs (Std.TransCmp (compareLex (compareOn (·.1))
    (compareLex (compareOn fun entry : KeyedView => sortDateKey entry.2) (compareOn (·.2.localUid)))))

theorem compare_antisymm {a b : String} (le : Before compare a b) (ge : Before compare b a) : a = b := by
  have swap : compare b a = (compare a b).swap := Std.OrientedCmp.eq_swap
  unfold Before at le ge
  rw [swap] at ge
  have same : compare a b = .eq := by
    cases order : compare a b <;> rw [order] at le ge <;> simp_all
  exact Std.LawfulEqCmp.compare_eq_iff_eq.mp same

theorem grouped_subjects (views : List MailboxMessageView) :
    Grouped Prod.fst (keyedViews views) (subjectGroups views) := by
  have ordered : ((keyedViews views).insertionSort (Before keyedOrder)).Pairwise
      fun a b => Before compare a.1 b.1 := by
    refine (List.pairwise_insertionSort (Before keyedOrder) _).imp fun {a b} before => ?_
    unfold Before keyedOrder at before
    unfold Before
    cases order : compare a.1 b.1 <;> simp_all
  have runs := grouped_splitBy compare_antisymm ordered
  exact (runs.perm_items (List.perm_insertionSort ..)).perm_groups (List.perm_insertionSort ..).symm

/-! ## The threads -/

def viewOrder : MailboxMessageView → MailboxMessageView → Ordering :=
  compareLex (compareOn sortDateKey) (compareOn (·.localUid))

instance : Std.TransCmp viewOrder := inferInstanceAs (Std.TransCmp (compareLex _ _))

def viewNode (key : String) (view : MailboxMessageView) : ThreadNode :=
  .node (viewUid view) key (sortDateKey view) []

/-- The thread of a group: its messages in the order of date and UID. -/
def IsThread (group : List KeyedView) (node : ThreadNode) : Prop :=
  ∃ root others, (root :: others).Perm group ∧
    (root :: others).Pairwise (fun a b => Before viewOrder a.2 b.2) ∧
    node = (viewNode root.1 root.2).withChildren (others.map fun entry => viewNode entry.1 entry.2)

theorem threadGroup_ok {group : List KeyedView} (some : group ≠ []) :
    ∃ node, threadGroup group = .ok node ∧ IsThread group node := by
  have total : Std.Total fun a b : KeyedView => Before viewOrder a.2 b.2 := ⟨fun a b => Std.Total.total a.2 b.2⟩
  have trans : IsTrans KeyedView fun a b => Before viewOrder a.2 b.2 :=
    ⟨fun a b c => IsTrans.trans a.2 b.2 c.2⟩
  have perm := List.perm_insertionSort (fun a b : KeyedView => Before viewOrder a.2 b.2) group
  have ordered := List.pairwise_insertionSort (fun a b : KeyedView => Before viewOrder a.2 b.2) group
  cases sorted : group.insertionSort fun a b => Before viewOrder a.2 b.2 with
  | nil =>
      rw [sorted] at perm
      exact absurd perm.symm.eq_nil some
  | cons root others =>
      rw [sorted] at perm ordered
      refine ⟨_, ?_, root, others, perm, ordered, rfl⟩
      unfold threadGroup
      rw [show group.insertionSort (fun a b => ((compare (sortDateKey a.2) (sortDateKey b.2)).then
        (compare a.2.localUid b.2.localUid)).isLE) = root :: others from sorted]
      rfl

theorem nodeUids_thread_eq {group : List KeyedView} {node : ThreadNode} (isThread : IsThread group node) :
    (nodeUids node).Perm (group.map (viewUid ·.2)) := by
  obtain ⟨root, others, perm, -, rfl⟩ := isThread
  have leaves : uidsOf (others.map fun entry => viewNode entry.1 entry.2) = others.map (viewUid ·.2) := by
    clear perm
    induction others with
    | nil => rfl
    | cons entry others ih =>
        rw [List.map_cons, uidsOf, ih]
        rfl
  change (viewUid root.2 :: uidsOf (others.map fun entry => viewNode entry.1 entry.2)).Perm _
  rw [leaves]
  exact perm.map (viewUid ·.2)

theorem uidsOf_threads_perm {groups : List (List KeyedView)} {forest : List ThreadNode}
    (each : List.Forall₂ IsThread groups forest) :
    (uidsOf forest).Perm (groups.flatten.map (viewUid ·.2)) := by
  induction each with
  | nil => exact .nil
  | cons isThread _ ih =>
      rw [uidsOf, List.flatten_cons, List.map_append]
      exact (nodeUids_thread_eq isThread).append ih

/-- The subject of the thread that a node is the root of. -/
def threadSubject : ThreadNode → String
  | .node _ subject _ _ => subject

theorem IsThread.subject {group : List KeyedView} {node : ThreadNode} (isThread : IsThread group node) :
    ∃ root ∈ group, threadSubject node = root.1 := by
  obtain ⟨root, others, perm, -, rfl⟩ := isThread
  exact ⟨root, perm.subset (List.mem_cons_self ..), rfl⟩

theorem subjects_nodup {groups : List (List KeyedView)} {forest : List ThreadNode}
    (each : List.Forall₂ IsThread groups forest)
    (apart : groups.Pairwise fun group other => ∀ x ∈ group, ∀ y ∈ other, x.1 ≠ y.1) :
    (forest.map threadSubject).Nodup := by
  induction each with
  | nil => exact .nil
  | @cons group node groups forest isThread others ih =>
      obtain ⟨first, later⟩ := List.pairwise_cons.mp apart
      rw [List.map_cons, List.nodup_cons]
      refine ⟨fun member => ?_, ih later⟩
      obtain ⟨other, inForest, same⟩ := List.mem_map.mp member
      obtain ⟨otherGroup, inGroups, otherThread⟩ := exists_of_mem_right others inForest
      obtain ⟨root, inGroup, subject⟩ := isThread.subject
      obtain ⟨otherRoot, inOther, otherSubject⟩ := otherThread.subject
      exact first otherGroup inGroups root inGroup otherRoot inOther
        (subject.symm.trans (same.symm.trans otherSubject))

attribute [local irreducible] subjectKey in
theorem perm_views_of_group {views : List MailboxMessageView} {group : List KeyedView}
    (member : group ∈ subjectGroups views) {root : KeyedView} (inGroup : root ∈ group) :
    (group.map (·.2)).Perm (views.filter fun view => subjectKey view = root.1) := by
  have perm := ((grouped_subjects views).perm_filter member inGroup).map (·.2)
  rw [keyedViews, List.filter_map, List.map_map] at perm
  have same : ((·.2) ∘ fun view => (subjectKey view, view) : MailboxMessageView → MailboxMessageView) = id := rfl
  rw [same, List.map_id] at perm
  exact perm

attribute [local irreducible] subjectKey in
theorem key_of_mem {views : List MailboxMessageView} {group : List KeyedView}
    (member : group ∈ subjectGroups views) {entry : KeyedView} (inGroup : entry ∈ group) :
    entry.1 = subjectKey entry.2 ∧ entry.2 ∈ views := by
  have keyed := (grouped_subjects views).mem_items.mpr ⟨group, member, inGroup⟩
  obtain ⟨view, inViews, rfl⟩ := List.mem_map.mp keyed
  exact ⟨rfl, inViews⟩

/-- The date of a message: when it was sent, or else when it was received, or else when it was recorded. -/
def date (view : MailboxMessageView) : Int :=
  match view.sentDate, view.internalDate with
  | some sent, _ => timestamp sent
  | none, some received => timestamp received
  | none, none => timestamp view.createdAt

def Earlier (a b : MailboxMessageView) : Prop := date a < date b ∨ date a = date b ∧ a.localUid < b.localUid

theorem sortDateKey_eq (view : MailboxMessageView) : sortDateKey view = date view := by
  unfold sortDateKey date
  cases view.sentDate with
  | some sent => rfl
  | none => cases view.internalDate <;> rfl

theorem viewOrder_lt {a b : MailboxMessageView} (order : viewOrder a b = .lt) : Earlier a b := by
  unfold viewOrder compareLex compareOn at order
  rw [sortDateKey_eq, sortDateKey_eq] at order
  rcases Ordering.then_eq_lt.mp order with earlier | ⟨same, earlier⟩
  · exact .inl (compare_lt_iff_lt.mp earlier)
  · exact .inr ⟨compare_eq_iff_eq.mp same, compare_lt_iff_lt.mp earlier⟩

/-- There is one thread for each subject. It has the messages of the subject, the first of them above all
others, which are in increasing order of date and UID. -/
theorem ordered_subject_partitions (views : List MailboxMessageView) (uids : (views.map viewUid).Nodup) :
    ∃ forest, threadOrderedSubject views = .ok forest ∧ (forest.map threadSubject).Nodup ∧
      (∀ subject, subject ∈ forest.map threadSubject ↔
        ∃ view ∈ views, normalizeThreadSubject view.subject = .ok subject) ∧
      (uidsOf forest).Perm (views.map viewUid) ∧
      ∀ node ∈ forest, ∃ root others,
        node = .node (viewUid root) (threadSubject node) (date root)
          (others.map fun view => .node (viewUid view) (threadSubject node) (date view) []) ∧
        (root :: others).Perm
          (views.filter fun view => normalizeThreadSubject view.subject = .ok (threadSubject node)) ∧
        (root :: others).Pairwise Earlier := by
  have normalized : ∀ view : MailboxMessageView, ∀ subject,
      normalizeThreadSubject view.subject = .ok subject ↔ subjectKey view = subject := by
    intro view subject
    rw [normalizeThreadSubject_ok, Except.ok.injEq]
  simp only [normalized, ← sortDateKey_eq]
  have grouped := grouped_subjects views
  obtain ⟨forest, built, each⟩ := mapM_ok threadGroup id IsThread (subjectGroups views) fun group member =>
    threadGroup_ok (grouped.nonempty group member)
  rw [List.map_id] at built
  refine ⟨forest, (threadOrderedSubject_eq views).trans built, subjects_nodup each grouped.apart, ?_, ?_, ?_⟩
  · intro subject
    constructor
    · intro member
      obtain ⟨node, inForest, rfl⟩ := List.mem_map.mp member
      obtain ⟨group, inGroups, isThread⟩ := exists_of_mem_right each inForest
      obtain ⟨root, inGroup, eq⟩ := isThread.subject
      obtain ⟨key, inViews⟩ := key_of_mem inGroups inGroup
      exact ⟨root.2, inViews, (eq.trans key).symm⟩
    · rintro ⟨view, inViews, rfl⟩
      obtain ⟨group, inGroups, inGroup⟩ := grouped.mem_items.mp
        (List.mem_map.mpr ⟨view, inViews, rfl⟩ : (subjectKey view, view) ∈ keyedViews views)
      obtain ⟨node, inForest, isThread⟩ := exists_of_mem_left each inGroups
      obtain ⟨root, rootIn, eq⟩ := isThread.subject
      exact List.mem_map.mpr ⟨node, inForest, eq.trans (grouped.same group inGroups root rootIn _ inGroup)⟩
  · refine (uidsOf_threads_perm each).trans ?_
    have all := grouped.perm.map (viewUid ·.2)
    rw [keyedViews, List.map_map] at all
    exact all
  · intro node inForest
    obtain ⟨group, inGroups, root, others, perm, ordered, rfl⟩ := exists_of_mem_right each inForest
    have rootIn : root ∈ group := perm.subset (List.mem_cons_self ..)
    have members : ((root :: others).map (·.2)).Perm (views.filter fun view => subjectKey view = root.1) :=
      (perm.map _).trans (perm_views_of_group inGroups rootIn)
    refine ⟨root.2, others.map fun entry : KeyedView => entry.2, ?_, ?_, ?_⟩
    · have leaves : (others.map fun entry => viewNode entry.1 entry.2) =
          (others.map (·.2)).map (viewNode root.1) := by
        rw [List.map_map]
        refine List.map_congr_left fun entry member => ?_
        have inGroup := perm.subset (List.mem_cons_of_mem root member)
        rw [grouped.same group inGroups entry inGroup root rootIn]
        rfl
      rw [leaves]
      rfl
    · exact members.trans (List.Perm.of_eq (List.filter_congr fun view _ => rfl))
    · have distinct : (((root :: others).map (·.2)).map viewUid).Nodup :=
        (members.map viewUid).nodup_iff.mpr (uids.sublist (List.filter_sublist.map _))
      have inOrder : ((root :: others).map (·.2)).Pairwise (Before viewOrder) :=
        List.pairwise_map.mpr ordered
      refine (inOrder.and (List.pairwise_map.mp distinct)).imp fun {a b} holds => ?_
      obtain ⟨before, apart⟩ := holds
      unfold Before at before
      cases order : viewOrder a b with
      | lt => exact viewOrder_lt order
      | gt =>
          rw [order] at before
          cases before
      | eq =>
          have sameUid : compare a.localUid b.localUid = .eq := (compareLex_eq_eq.mp order).2
          exact absurd (congrArg i64AsU64 (Std.LawfulEqCmp.compare_eq_iff_eq.mp sameUid)) apart

/-- Two messages of one subject. -/
theorem ordered_subject_partitions_reply :
    ∃ forest, threadOrderedSubject [Sample.view 1 [] "hi", Sample.view 2 [] "Re: hi"] = .ok forest ∧
      (uidsOf forest).Perm [1, 2] := by
  obtain ⟨forest, threaded, -, -, all, -⟩ :=
    ordered_subject_partitions [Sample.view 1 [] "hi", Sample.view 2 [] "Re: hi"] (by decide +kernel)
  exact ⟨forest, threaded, all⟩

end ImapCache.Threads
