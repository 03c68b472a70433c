import ImapCache.Model.FilesystemStore
import ImapCache.Proof.RangeReads
import ImapCache.Proof.IngestAtomicity

/-!
# Puts and reads of a file

A put empties the file of its key before it writes. Reads after a completed put find the whole object as
long as no put opens the file when another one has completed or is in the middle of writing.
-/

namespace ImapCache.FilesystemStore
open ObjectStores

variable {lib : Libraries} {key : String} {blob : Bytes}

/-! ## Addresses -/

/-- The object of a key: the only bytes that can be put under it. -/
structure Addressed (lib : Libraries) (key : String) (blob : Bytes) : Prop where
  own : validateContentAddressedBytes lib key blob = .ok ()
  only : ∀ bytes, validateContentAddressedBytes lib key bytes = .ok () → bytes = blob

theorem addressed_of_digest {objectType : ObjectType}
    (unique : ∀ bytes, lib.sha256 bytes = lib.sha256 blob → bytes = blob) :
    Addressed lib (contentAddressedKey lib objectType blob) blob := by
  refine ⟨Ingest.validate_key lib objectType blob, fun bytes valid => ?_⟩
  apply unique
  have same : contentAddressedKey lib objectType bytes = contentAddressedKey lib objectType blob := by
    unfold validateContentAddressedBytes at valid
    rw [Ingest.splitOnce_key] at valid
    by_contra other
    cases objectType <;> simp [ObjectType.text, other] at valid
  unfold contentAddressedKey at same
  have chars := congrArg String.toList same
  simp only [String.toList_append, List.append_cancel_left_eq] at chars
  exact String.toList_injective chars

/-! ## Writes -/

/-- A write of the next bytes of an object to a beginning of it, which may already have them. -/
theorem writeAt_take {length written : Nat} (bound : length ≤ blob.length) (within : written ≤ length)
    (size : Nat) : writeAt written ((blob.drop written).take size) (blob.take length) =
      blob.take (max length (written + size)) := by
  have noGap : written - (blob.take length).length = 0 := by
    rw [List.length_take, min_eq_left bound]
    omega
  have front : (blob.take length).take written = blob.take written := by
    rw [List.take_take, min_eq_left within]
  have pieceLength : ((blob.drop written).take size).length = min size (blob.length - written) := by simp
  unfold writeAt
  rw [noGap, front, List.replicate_zero, List.append_nil, ← List.take_add, pieceLength]
  by_cases covered : length ≤ written + size
  · rw [max_eq_right covered, List.drop_eq_nil_of_le (by rw [List.length_take]; omega), List.append_nil]
  · have piece : written + min size (blob.length - written) = written + size := by omega
    have again : blob.take (written + size) = (blob.take length).take (written + size) := by
      rw [List.take_take, min_eq_left (by omega)]
    rw [max_eq_left (by omega), piece, again, List.take_append_drop]

/-- A file that has a beginning of an object still has one after the write, and no shorter one. -/
theorem writeAt_prefix {content : Bytes} (starts : content <+: blob) {written : Nat}
    (within : written ≤ content.length) (size : Nat) :
    ∃ content', writeAt written ((blob.drop written).take size) content = content' ∧ content' <+: blob ∧
      content.length ≤ content'.length ∧
      written + ((blob.drop written).take size).length ≤ content'.length := by
  have eq := List.prefix_iff_eq_take.mp starts
  have bound := starts.length_le
  have write : writeAt written ((blob.drop written).take size) (blob.take content.length) =
      blob.take (max content.length (written + size)) := writeAt_take bound within size
  rw [← eq] at write
  refine ⟨_, write, List.take_prefix .., ?_, ?_⟩
  · rw [List.length_take]
    omega
  · rw [List.length_take, List.length_take, List.length_drop]
    omega

/-! ## Runs -/

/-- No put has completed, and none that may go on has written anything. -/
structure Untouched (state : State) : Prop where
  complete : ∀ pid metadata, state.calls pid ≠ .putDone (.ok metadata)
  written : ∀ pid bytes written, state.calls pid = .putWrite bytes written → written = 0

/-- A put with bytes to write opens its file only while the other puts have not touched it. -/
def Permits (state : State) : Event → Prop
  | .advance pid _ => ∀ bytes, state.calls pid = .putCreate bytes → bytes = [] ∨ Untouched state
  | _ => True

def Step (lib : Libraries) (key : String) (permits : State → Event → Prop) (state after : State) : Prop :=
  ∃ event, step lib key state event = some after ∧ permits state event

/-- The states that a run leads to whose events are all permitted. -/
def Run (lib : Libraries) (key : String) (permits : State → Event → Prop) : State → State → Prop :=
  Relation.ReflTransGen (Step lib key permits)

def Fits (blob : Bytes) (file : Option Bytes) : Call → Prop
  | .putCreateDirAll bytes | .putCreate bytes => bytes = blob
  | .putWrite bytes written => bytes = blob ∧ ∃ content, file = some content ∧ written ≤ content.length
  | .putDone (.ok _) => file = some blob
  | _ => True

/-- The file has a beginning of the object, and every put has written its part of it. -/
structure Consistent (blob : Bytes) (state : State) : Prop where
  starts : ∀ content, state.file = some content → content <+: blob
  fits : ∀ pid, Fits blob state.file (state.calls pid)

theorem consistent_start (blob : Bytes) : Consistent blob .start := ⟨nofun, fun _ => trivial⟩

/-- What a step of a call does to the file: nothing, or it empties it, or it writes to it. -/
theorem advance_file {size : Nat} {file file' : Option Bytes} {call call' : Call}
    (advanced : advance lib key size file call = some (file', call')) :
    file' = file ∨ (∃ bytes, call = .putCreate bytes ∧ file' = some []) ∨
      ∃ bytes written, call = .putWrite bytes written ∧
        file' = file.map (writeAt written ((bytes.drop written).take (size + 1))) := by
  cases call with
  | putCreate bytes =>
      cases advanced
      exact .inr (.inl ⟨bytes, rfl, rfl⟩)
  | putWrite bytes written =>
      simp only [advance] at advanced
      split at advanced
      · cases advanced
        exact .inr (.inr ⟨bytes, written, rfl, rfl⟩)
      · cases advanced
        exact .inl rfl
  | putStart bytes =>
      simp only [advance] at advanced
      split at advanced <;> cases advanced <;> exact .inl rfl
  | putCreateDirAll bytes =>
      cases advanced
      exact .inl rfl
  | getOpen | rangeOpen =>
      simp only [advance] at advanced
      split at advanced <;> cases advanced <;> exact .inl rfl
  | getRead | rangeMetadata | rangeRead =>
      simp only [advance] at advanced
      repeat' split at advanced
      all_goals
        cases advanced
        exact .inl rfl
  | idle | putDone | getDone | rangeDone | cutOff => cases advanced

theorem Fits.grow {file : Option Bytes} {content content' : Bytes} {call : Call}
    (fits : Fits blob file call) (before : file = some content) (starts : content' <+: blob)
    (longer : content.length ≤ content'.length) : Fits blob (some content') call := by
  subst before
  cases call with
  | putWrite bytes written =>
      obtain ⟨same, old, isOld, within⟩ := fits
      cases isOld
      exact ⟨same, content', rfl, by omega⟩
  | putDone result =>
      cases result with
      | error failure => trivial
      | ok metadata =>
          obtain rfl : content = blob := Option.some.inj fits
          rw [starts.eq_of_length_le longer]
          rfl
  | _ => exact fits

theorem fits_advance (addressed : Addressed lib key blob) {size : Nat} {file file' : Option Bytes}
    {call call' : Call} (starts : ∀ content, file = some content → content <+: blob)
    (fits : Fits blob file call) (advanced : advance lib key size file call = some (file', call')) :
    (∀ content, file' = some content → content <+: blob) ∧ Fits blob file' call' := by
  cases call with
  | putStart bytes =>
      simp only [advance] at advanced
      split at advanced
      · rename_i valid
        cases advanced
        exact ⟨starts, addressed.only bytes valid⟩
      · cases advanced
        exact ⟨starts, trivial⟩
  | putCreateDirAll bytes =>
      cases advanced
      exact ⟨starts, fits⟩
  | putCreate bytes =>
      cases advanced
      refine ⟨fun content is => ?_, fits, [], rfl, le_refl _⟩
      cases is
      exact List.nil_prefix
  | putWrite bytes written =>
      obtain ⟨rfl, content, rfl, within⟩ := fits
      simp only [advance] at advanced
      split at advanced
      · cases advanced
        obtain ⟨content', eq, startsAfter, -, reached⟩ :=
          writeAt_prefix (starts content rfl) within (size + 1)
        rw [Option.map_some, eq]
        refine ⟨fun other is => ?_, rfl, content', rfl, reached⟩
        cases is
        exact startsAfter
      · rename_i all
        cases advanced
        refine ⟨starts, ?_⟩
        have whole : content = bytes := (starts content rfl).eq_of_length_le (by omega)
        rw [whole]
        rfl
  | getOpen | rangeOpen =>
      simp only [advance] at advanced
      split at advanced <;> cases advanced <;> exact ⟨starts, trivial⟩
  | getRead | rangeMetadata | rangeRead =>
      simp only [advance] at advanced
      repeat' split at advanced
      all_goals
        cases advanced
        exact ⟨starts, trivial⟩
  | idle | putDone | getDone | rangeDone | cutOff => cases advanced

theorem fits_idle {file : Option Bytes} (request : Request) : Fits blob file request.call := by
  cases request <;> trivial

theorem consistent_set {state : State} {pid : Nat} {file : Option Bytes} {call : Call}
    (starts : ∀ content, file = some content → content <+: blob) (own : Fits blob file call)
    (others : ∀ other, other ≠ pid → Fits blob file (state.calls other)) :
    Consistent blob (state.set pid file call) := by
  refine ⟨starts, fun other => ?_⟩
  change Fits blob file (Function.update state.calls pid call other)
  by_cases same : other = pid
  · subst same
    rw [Function.update_self]
    exact own
  · rw [Function.update_of_ne same]
    exact others other same

theorem Untouched.fits_empty {state : State} (untouched : Untouched state) {pid : Nat}
    (fits : Fits blob state.file (state.calls pid)) : Fits blob (some []) (state.calls pid) := by
  cases call : state.calls pid with
  | putWrite bytes written =>
      rw [call] at fits
      exact ⟨fits.1, [], rfl, by rw [untouched.written pid bytes written call]; exact le_refl _⟩
  | putDone result =>
      cases result with
      | error failure => trivial
      | ok metadata => exact absurd call (untouched.complete pid metadata)
  | putCreateDirAll bytes | putCreate bytes =>
      rw [call] at fits
      exact fits
  | _ => trivial

theorem fits_empty_object {file : Option Bytes} {call : Call}
    (starts : ∀ content, file = some content → content <+: []) (fits : Fits [] file call) :
    Fits [] (some []) call := by
  cases call with
  | putWrite bytes written =>
      obtain ⟨same, content, is, within⟩ := fits
      rw [List.prefix_nil.mp (starts content is)] at within
      exact ⟨same, [], rfl, within⟩
  | putDone result =>
      cases result with
      | error failure => trivial
      | ok metadata => rfl
  | _ => exact fits

theorem consistent_step (addressed : Addressed lib key blob) {state after : State}
    (consistent : Consistent blob state) (step : Step lib key Permits state after) :
    Consistent blob after := by
  obtain ⟨event, stepped, permitted⟩ := step
  cases event with
  | begin pid request =>
      simp only [FilesystemStore.step] at stepped
      split at stepped
      · cases stepped
        exact consistent_set consistent.starts (fits_idle request) fun other _ => consistent.fits other
      · cases stepped
  | cut pid =>
      simp only [FilesystemStore.step, Option.map_eq_some_iff] at stepped
      obtain ⟨running, -, rfl⟩ := stepped
      exact consistent_set consistent.starts trivial fun other _ => consistent.fits other
  | advance pid size =>
      simp only [FilesystemStore.step, Option.map_eq_some_iff] at stepped
      obtain ⟨⟨file, call⟩, advanced, rfl⟩ := stepped
      have fits := consistent.fits pid
      obtain ⟨starts, own⟩ := fits_advance addressed consistent.starts fits advanced
      refine consistent_set starts own fun other _ => ?_
      have fitsOther := consistent.fits other
      rcases advance_file advanced with rfl | ⟨bytes, isCreate, rfl⟩ | ⟨bytes, written, isWrite, rfl⟩
      · exact fitsOther
      · rcases permitted bytes isCreate with rfl | untouched
        · rw [isCreate] at fits
          obtain rfl : [] = blob := fits
          exact fits_empty_object consistent.starts fitsOther
        · exact untouched.fits_empty fitsOther
      · rw [isWrite] at fits
        obtain ⟨rfl, content, is, within⟩ := fits
        obtain ⟨content', eq, startsAfter, longer, -⟩ :=
          writeAt_prefix (consistent.starts content is) within (size + 1)
        rw [is, Option.map_some, eq]
        exact fitsOther.grow is startsAfter longer

/-! ## Reads after a put -/

def Completed (state : State) : Prop := ∃ pid metadata, state.calls pid = .putDone (.ok metadata)

theorem Consistent.file_of_completed {state : State} (consistent : Consistent blob state)
    (completed : Completed state) : state.file = some blob := by
  obtain ⟨pid, metadata, done⟩ := completed
  have fits := consistent.fits pid
  rw [done] at fits
  exact fits

theorem completed_step {permits : State → Event → Prop} {state after : State} (completed : Completed state)
    (step : Step lib key permits state after) : Completed after := by
  obtain ⟨pid, metadata, done⟩ := completed
  obtain ⟨event, stepped, -⟩ := step
  have kept {other : Nat} {file : Option Bytes} {call : Call} (ne : pid ≠ other) :
      Completed (state.set other file call) := by
    refine ⟨pid, metadata, ?_⟩
    change Function.update state.calls other call pid = _
    rw [Function.update_of_ne ne]
    exact done
  cases event with
  | begin other request =>
      simp only [FilesystemStore.step] at stepped
      split at stepped
      · rename_i idle
        cases stepped
        exact kept fun same => by rw [← same, done] at idle; cases idle
      · cases stepped
  | cut other =>
      simp only [FilesystemStore.step, Option.map_eq_some_iff] at stepped
      obtain ⟨running, advanced, rfl⟩ := stepped
      exact kept fun same => by rw [← same, done] at advanced; cases advanced
  | advance other size =>
      simp only [FilesystemStore.step, Option.map_eq_some_iff] at stepped
      obtain ⟨⟨file, call⟩, advanced, rfl⟩ := stepped
      exact kept fun same => by rw [← same, done] at advanced; cases advanced

/-- What a read has so far, if the whole object is there, and what it ends with. -/
def Reads (key : String) (blob : Bytes) : Call → Prop
  | .getRead found => found <+: blob
  | .getDone result => result = .ok (some blob)
  | .rangeRead start stop left found =>
      start < blob.length ∧ start ≤ min (stop.getD blob.length) blob.length ∧
        left + found.length = min (stop.getD blob.length) blob.length - start ∧
        found <+: blob.drop start
  | .rangeDone start stop result => result = filesystemGetRange [(key, blob)] key start stop
  | _ => True

theorem prefix_append_piece {found whole : Bytes} (starts : found <+: whole) (size : Nat) :
    found ++ (whole.drop found.length).take size <+: whole := by
  obtain ⟨rest, rfl⟩ := starts
  rw [List.drop_left]
  exact (List.prefix_append_right_inj found).mpr (List.take_prefix ..)

theorem reads_advance (addressed : Addressed lib key blob) {size : Nat} {file' : Option Bytes}
    {call call' : Call} (reads : Reads key blob call)
    (advanced : advance lib key size (some blob) call = some (file', call')) : Reads key blob call' := by
  cases call with
  | getOpen =>
      cases advanced
      exact List.nil_prefix
  | getRead found =>
      simp only [advance, Option.getD_some] at advanced
      split at advanced
      · rename_i none
        cases advanced
        rw [List.isEmpty_iff, List.take_eq_nil_iff, List.drop_eq_nil_iff] at none
        have whole : found = blob := reads.eq_of_length_le (none.resolve_left (by omega))
        rw [whole, addressed.own]
        rfl
      · cases advanced
        exact prefix_append_piece reads (size + 1)
  | rangeOpen start stop =>
      cases advanced
      trivial
  | rangeMetadata start stop =>
      simp only [advance, Option.getD_some] at advanced
      have whole (result : Reading) : Reads key blob (.rangeDone start stop result) ↔
          result = filesystemGetRange [(key, blob)] key start stop := Iff.rfl
      split at advanced
      · rename_i behind
        cases advanced
        rw [whole, filesystemGetRange, List.lookup_cons_self]
        dsimp only
        rw [if_pos behind]
      · rename_i within
        split at advanced
        · rename_i reversed
          cases advanced
          rw [whole, filesystemGetRange, List.lookup_cons_self]
          dsimp only
          rw [if_neg within, if_pos reversed]
        · rename_i ordered
          cases advanced
          exact ⟨by omega, by omega, by simp, List.nil_prefix⟩
  | rangeRead start stop left found =>
      obtain ⟨within, ordered, total, starts⟩ := reads
      simp only [advance, Option.getD_some] at advanced
      split at advanced
      · rename_i all
        cases advanced
        change _ = filesystemGetRange [(key, blob)] key start stop
        have exactly : readExact blob start (min (stop.getD blob.length) blob.length - start) = .ok found := by
          rw [readExact, if_neg (by rw [List.length_drop]; omega), ← total, all, Nat.zero_add,
            ← List.prefix_iff_eq_take.mp starts]
        rw [filesystemGetRange, List.lookup_cons_self]
        dsimp only
        rw [if_neg (by omega), if_neg (by omega), exactly]
        rfl
      · rename_i more
        split at advanced
        · rename_i none
          exfalso
          rw [List.isEmpty_iff, List.take_eq_nil_iff, List.drop_eq_nil_iff] at none
          have bound := starts.length_le
          rw [List.length_drop] at bound
          omega
        · cases advanced
          have piece : ((blob.drop (start + found.length)).take (min (size + 1) left)).length ≤ left := by
            rw [List.length_take]
            omega
          refine ⟨within, ordered, ?_, ?_⟩
          · rw [List.length_append]
            omega
          · rw [← List.drop_drop]
            exact prefix_append_piece starts _
  | putStart bytes =>
      simp only [advance] at advanced
      split at advanced <;> cases advanced <;> trivial
  | putWrite bytes written =>
      simp only [advance] at advanced
      split at advanced <;> cases advanced <;> trivial
  | putCreateDirAll | putCreate =>
      cases advanced
      trivial
  | idle | putDone | getDone | rangeDone | cutOff => cases advanced

theorem reads_step (addressed : Addressed lib key blob) {permits : State → Event → Prop} {state after : State}
    (whole : state.file = some blob) {reader : Nat} (reads : Reads key blob (state.calls reader))
    (step : Step lib key permits state after) : Reads key blob (after.calls reader) := by
  obtain ⟨event, stepped, -⟩ := step
  have others {pid : Nat} {file : Option Bytes} {call : Call} (own : reader = pid → Reads key blob call) :
      Reads key blob ((state.set pid file call).calls reader) := by
    change Reads key blob (Function.update state.calls pid call reader)
    by_cases same : reader = pid
    · subst same
      rw [Function.update_self]
      exact own rfl
    · rw [Function.update_of_ne same]
      exact reads
  cases event with
  | begin pid request =>
      simp only [FilesystemStore.step] at stepped
      split at stepped
      · cases stepped
        exact others fun _ => by cases request <;> trivial
      · cases stepped
  | cut pid =>
      simp only [FilesystemStore.step, Option.map_eq_some_iff] at stepped
      obtain ⟨running, -, rfl⟩ := stepped
      exact others fun _ => trivial
  | advance pid size =>
      simp only [FilesystemStore.step, Option.map_eq_some_iff] at stepped
      obtain ⟨⟨file, call⟩, advanced, rfl⟩ := stepped
      rw [whole] at advanced
      exact others fun same => reads_advance addressed (same ▸ reads) advanced

theorem consistent_run (addressed : Addressed lib key blob) {state : State}
    (run : Run lib key Permits .start state) : Consistent blob state := by
  induction run with
  | refl => exact consistent_start blob
  | tail _ step ih => exact consistent_step addressed ih step

/-- Once a put has completed, the file has the object, and a read that begins then has a beginning of
what it is to find or has found it. -/
theorem reads_run (addressed : Addressed lib key blob) {before after : State} {reader : Nat}
    (first : Run lib key Permits .start before) (completed : Completed before)
    (idle : before.calls reader = .idle) (later : Run lib key Permits before after) :
    Completed after ∧ Run lib key Permits .start after ∧ Reads key blob (after.calls reader) := by
  induction later with
  | refl =>
      refine ⟨completed, first, ?_⟩
      rw [idle]
      trivial
  | tail _ step ih =>
      obtain ⟨completed, run, reads⟩ := ih
      have whole := (consistent_run addressed run).file_of_completed completed
      exact ⟨completed_step completed step, run.tail step, reads_step addressed whole reads step⟩

/-- In a run in which no put opens the file after another one has completed or while it is writing, every
read that begins after a completed put finds the whole object. -/
theorem reads_after_put_complete {objectType : ObjectType}
    (unique : ∀ bytes, lib.sha256 bytes = lib.sha256 blob → bytes = blob) {before after : State}
    {reader : Nat} (first : Run lib (contentAddressedKey lib objectType blob) Permits .start before)
    (completed : Completed before) (idle : before.calls reader = .idle)
    (later : Run lib (contentAddressedKey lib objectType blob) Permits before after) :
    (∀ result, after.calls reader = .getDone result → result = .ok (some blob)) ∧
      (∀ (range : Range) result, after.calls reader = .rangeDone range.start range.stop result →
        result = .ok (.ok (some (part blob range.start range.stop)))) ∧
      ∀ start stop result, after.calls reader = .rangeDone start stop result →
        result = filesystemGetRange [(contentAddressedKey lib objectType blob, blob)]
          (contentAddressedKey lib objectType blob) start stop := by
  obtain ⟨-, -, reads⟩ := reads_run (addressed_of_digest unique) first completed idle later
  refine ⟨fun result done => ?_, fun range result done => ?_, fun start stop result done => ?_⟩
  · rw [done] at reads
    exact reads
  · rw [done] at reads
    exact reads.trans (filesystemGetRange_eq List.lookup_cons_self range)
  · rw [done] at reads
    exact reads

/-! ## An object that is put twice -/

@[simp] theorem set_file (state : State) (pid : Nat) (file : Option Bytes) (call : Call) :
    (state.set pid file call).file = file := rfl

@[simp] theorem set_calls_self (state : State) (pid : Nat) (file : Option Bytes) (call : Call) :
    (state.set pid file call).calls pid = call := Function.update_self ..

@[simp] theorem set_calls_other (state : State) {pid other : Nat} (ne : other ≠ pid)
    (file : Option Bytes) (call : Call) :
    (state.set pid file call).calls other = state.calls other := Function.update_of_ne ne ..

@[simp] theorem set_set (state : State) (pid : Nat) (file file' : Option Bytes) (call call' : Call) :
    (state.set pid file call).set pid file' call' = state.set pid file' call' := by
  simp [State.set]

theorem Run.begins {permits : State → Event → Prop} {first state : State}
    (run : Run lib key permits first state) {pid : Nat} (idle : state.calls pid = .idle)
    (request : Request) (permitted : permits state (.begin pid request)) :
    Run lib key permits first (state.set pid state.file request.call) :=
  run.tail ⟨.begin pid request, by simp only [step, idle], permitted⟩

theorem Run.advances {permits : State → Event → Prop} {first state : State} {pid : Nat}
    {file file' : Option Bytes} {call call' : Call} (size : Nat)
    (run : Run lib key permits first (state.set pid file call))
    (advanced : advance lib key size file call = some (file', call'))
    (permitted : permits (state.set pid file call) (.advance pid size)) :
    Run lib key permits first (state.set pid file' call') := by
  refine run.tail ⟨.advance pid size, ?_, permitted⟩
  simp [step, advanced]

theorem permits_of_ne {state : State} {pid size : Nat} {file : Option Bytes} {call : Call}
    (other : ∀ bytes, call ≠ .putCreate bytes) : Permits (state.set pid file call) (.advance pid size) := by
  intro bytes is
  rw [set_calls_self] at is
  exact absurd is (other bytes)

theorem run_put (addressed : Addressed lib key blob) (nonempty : blob ≠ []) :
    Run lib key Permits .start
      (State.start.set 0 (some blob) (.putDone (.ok ⟨key, lib.sha256 blob, blob.length⟩))) := by
  have untouched : Untouched (State.start.set 0 none (.putCreate blob)) := by
    have calls (pid : Nat) : (State.start.set 0 none (.putCreate blob)).calls pid = .putCreate blob ∨
        (State.start.set 0 none (.putCreate blob)).calls pid = .idle := by
      by_cases own : pid = 0
      · exact .inl (by rw [own, set_calls_self])
      · exact .inr (by rw [set_calls_other _ own]; rfl)
    refine ⟨fun pid metadata done => ?_, fun pid bytes written writes => ?_⟩
    · rcases calls pid with is | is <;> rw [is] at done <;> cases done
    · rcases calls pid with is | is <;> rw [is] at writes <;> cases writes
  have begun : Run lib key Permits .start (State.start.set 0 none (.putStart blob)) :=
    Run.begins .refl rfl (.put blob) trivial
  have valid : Run lib key Permits .start (State.start.set 0 none (.putCreateDirAll blob)) :=
    begun.advances 0 (by simp [advance, addressed.own]) (permits_of_ne nofun)
  have ready : Run lib key Permits .start (State.start.set 0 none (.putCreate blob)) :=
    valid.advances 0 rfl (permits_of_ne nofun)
  have created : Run lib key Permits .start (State.start.set 0 (some []) (.putWrite blob 0)) :=
    ready.advances 0 rfl fun _ _ => .inr untouched
  have written : Run lib key Permits .start
      (State.start.set 0 (some blob) (.putWrite blob blob.length)) := by
    refine created.advances blob.length ?_ (permits_of_ne nofun)
    have positive := List.length_pos_iff.mpr nonempty
    have all : blob.take (blob.length + 1) = blob := List.take_of_length_le (by omega)
    simp [advance, positive, all, writeAt]
  refine written.advances 0 ?_ (permits_of_ne nofun)
  rw [advance, if_neg (by omega)]

def stored (lib : Libraries) (key : String) (blob : Bytes) : State :=
  State.start.set 0 (some blob) (.putDone (.ok ⟨key, lib.sha256 blob, blob.length⟩))

theorem stored_completed : Completed (stored lib key blob) := ⟨0, _, set_calls_self ..⟩

theorem stored_idle {pid : Nat} (other : pid ≠ 0) : (stored lib key blob).calls pid = .idle :=
  set_calls_other _ other ..

theorem run_get (lib : Libraries) (key : String) (nonempty : blob ≠ []) :
    Run lib key Permits (stored lib key blob) ((stored lib key blob).set 1 (some blob)
      (.getDone ((validateContentAddressedBytes lib key blob).map fun _ => some blob))) := by
  have all : blob.take (blob.length + 1) = blob := List.take_of_length_le (by omega)
  have begun : Run lib key Permits (stored lib key blob) ((stored lib key blob).set 1 (some blob) .getOpen) :=
    Run.begins .refl (stored_idle (by decide)) .get trivial
  have opened : Run lib key Permits (stored lib key blob)
      ((stored lib key blob).set 1 (some blob) (.getRead [])) :=
    begun.advances 0 rfl (permits_of_ne nofun)
  have read : Run lib key Permits (stored lib key blob)
      ((stored lib key blob).set 1 (some blob) (.getRead blob)) := by
    refine opened.advances blob.length ?_ (permits_of_ne nofun)
    simp [advance, all, nonempty]
  refine read.advances 0 ?_ (permits_of_ne nofun)
  rw [advance, Option.getD_some, List.drop_length, List.take_nil]
  rfl

def reopened (lib : Libraries) (key : String) (blob : Bytes) : State :=
  (stored lib key blob).set 1 (some []) (.putWrite blob 0)

theorem run_reopened (addressed : Addressed lib key blob) :
    Run lib key (fun _ _ => True) (stored lib key blob) (reopened lib key blob) := by
  have begun : Run lib key (fun _ _ => True) (stored lib key blob)
      ((stored lib key blob).set 1 (some blob) (.putStart blob)) :=
    Run.begins .refl (stored_idle (by decide)) (.put blob) trivial
  have valid : Run lib key (fun _ _ => True) (stored lib key blob)
      ((stored lib key blob).set 1 (some blob) (.putCreateDirAll blob)) :=
    begun.advances 0 (by simp [advance, addressed.own]) trivial
  have ready : Run lib key (fun _ _ => True) (stored lib key blob)
      ((stored lib key blob).set 1 (some blob) (.putCreate blob)) := valid.advances 0 rfl trivial
  exact ready.advances 0 rfl trivial

theorem run_get_reopened :
    Run lib key (fun _ _ => True) (reopened lib key blob) ((reopened lib key blob).set 2 (some [])
      (.getDone ((validateContentAddressedBytes lib key []).map fun _ => some []))) := by
  have idle : (reopened lib key blob).calls 2 = .idle := by
    rw [reopened, set_calls_other _ (by decide)]
    exact stored_idle (by decide)
  have begun : Run lib key (fun _ _ => True) (reopened lib key blob)
      ((reopened lib key blob).set 2 (some []) .getOpen) := Run.begins .refl idle .get trivial
  have opened : Run lib key (fun _ _ => True) (reopened lib key blob)
      ((reopened lib key blob).set 2 (some []) (.getRead [])) := begun.advances 0 rfl trivial
  exact opened.advances 0 rfl trivial

theorem Run.weaken {state after : State} (run : Run lib key Permits state after) :
    Run lib key (fun _ _ => True) state after := by
  induction run with
  | refl => exact .refl
  | tail _ step ih =>
      obtain ⟨event, stepped, -⟩ := step
      exact ih.tail ⟨event, stepped, trivial⟩

theorem bodyText_unique : ∀ bytes, Sample.libraries.sha256 bytes = Sample.libraries.sha256 Sample.bodyText →
    bytes = Sample.bodyText := by
  intro bytes same
  change Sample.sha256 bytes = Sample.sha256 Sample.bodyText at same
  unfold Sample.sha256 at same
  cases found : Sample.digests.lookup bytes with
  | some digest =>
      rw [found] at same
      have member : (bytes, digest) ∈ Sample.digests := by
        obtain ⟨before, after, eq, -⟩ := List.lookup_eq_some_iff.mp found
        rw [eq]
        simp
      have only : ∀ pair ∈ Sample.digests,
          pair.2 = "230d8358dc8e8890b4c58deeb62912ee2f20357ae92a5cc861b98e68fe31acb5" →
            pair.1 = Sample.bodyText := by decide +kernel
      exact only _ member same
  | none =>
      rw [found] at same
      have first := congrArg (fun digest : String => digest.toList.head?) same
      exact absurd first (by simp [Sample.undigested, Sample.digests]; decide)

def sampleKey : String := contentAddressedKey Sample.libraries .mimePart Sample.bodyText

theorem reads_after_put_complete_sample :
    ∃ after result, Run Sample.libraries sampleKey Permits
        (stored Sample.libraries sampleKey Sample.bodyText) after ∧
      after.calls 1 = .getDone result ∧ result = .ok (some Sample.bodyText) := by
  have addressed : Addressed Sample.libraries sampleKey Sample.bodyText :=
    addressed_of_digest bodyText_unique
  have nonempty : Sample.bodyText ≠ [] := by decide
  have run := run_get Sample.libraries sampleKey nonempty
  refine ⟨_, _, run, set_calls_self .., ?_⟩
  exact (reads_after_put_complete bodyText_unique (run_put addressed nonempty) stored_completed
    (stored_idle (by decide)) run).1 _ (set_calls_self ..)

/-- A get that runs into a second put of the object finds an empty file and fails. -/
theorem second_put_empties :
    ¬ ∀ (lib : Libraries) (objectType : ObjectType) (blob : Bytes),
      (∀ bytes, lib.sha256 bytes = lib.sha256 blob → bytes = blob) →
        ∀ (before after : State) (reader : Nat) result,
          Run lib (contentAddressedKey lib objectType blob) (fun _ _ => True) .start before →
          Completed before → before.calls reader = .idle →
          Run lib (contentAddressedKey lib objectType blob) (fun _ _ => True) before after →
          after.calls reader = .getDone result → result = .ok (some blob) := by
  intro complete
  have addressed : Addressed Sample.libraries sampleKey Sample.bodyText :=
    addressed_of_digest bodyText_unique
  have nonempty : Sample.bodyText ≠ [] := by decide
  have read := complete Sample.libraries .mimePart Sample.bodyText bodyText_unique _ _ 2 _
    (run_put addressed nonempty).weaken stored_completed (stored_idle (by decide))
    ((run_reopened addressed).trans run_get_reopened) (set_calls_self ..)
  cases valid : validateContentAddressedBytes Sample.libraries sampleKey [] with
  | error failure =>
      rw [valid] at read
      cases read
  | ok _ => exact nonempty (addressed.only [] valid).symm

end ImapCache.FilesystemStore
