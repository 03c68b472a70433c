import ImapCache.Model.Sample
import ImapCache.Proof.Answers
import ImapCache.Proof.Footprints

/-!
# Partial fetches

A range of the whole message or of a part is read from the store directly. A whole message that is
missing is fetched again either way. A part that is missing is restored for the whole of it only.
-/

namespace ImapCache.RawFetch
open Lib Prog Protocol

variable {source : Source} {world : World}

def outcome (source : Source) (p : Action (Option Bytes)) (world : World) : Except Error (Option Bytes) :=
  (p.eval (cacheHandler source.lib) world).1

/-- The range of what the whole section loads is what the partial fetch loads. -/
def RangeAgrees (source : Source) (bodySection : RawFetchSection) (range : Nat × Option Nat)
    (world : World) : Prop :=
  ∀ loaded, outcome source (loadRawFetchBytes source bodySection none) world = .ok loaded →
    outcome source (loadRawFetchBytes source bodySection (some range)) world =
      .ok (loaded.map (applyPartial · (some range)))

/-! ## Programs that differ in their last step -/

theorem outcome_map (p : Action (Option Bytes)) (f : Option Bytes → Option Bytes) (world : World) :
    outcome source (p.bind fun loaded => .ret (f loaded)) world = (outcome source p world).map f := by
  unfold outcome
  rw [eval_bind]
  rcases p.eval (cacheHandler source.lib) world with ⟨result, world'⟩
  cases result <;> rfl

theorem agrees_of_map {bodySection : RawFetchSection} {range : Nat × Option Nat}
    (same : loadRawFetchBytes source bodySection (some range) =
      (loadRawFetchBytes source bodySection none).bind fun loaded =>
        .ret (loaded.map (applyPartial · (some range)))) (world : World) :
    RangeAgrees source bodySection range world := by
  intro loaded whole
  rw [same, outcome_map, whole]
  rfl

theorem loadPart_range (source : Source) (part : MimePart) (storedPath : String)
    (bodySection : FetchBodySection) (range : Nat × Option Nat) :
    loadPart source part storedPath bodySection (some range) =
      (loadPart source part storedPath bodySection none).bind fun loaded =>
        .ret (loaded.map (applyPartial · (some range))) := by
  unfold loadPart
  simp only [bind_eq, bind_assoc]
  congr 1
  funext stored
  congr 1
  funext raw
  cases raw with
  | none => rfl
  | some raw =>
      simp only [bind_assoc]
      rfl

theorem agrees_whole {bodySection : FetchBodySection} (partly : bodySection ≠ .full)
    (range : Nat × Option Nat) (world : World) :
    RangeAgrees source (.whole bodySection) range world := by
  refine agrees_of_map ?_ world
  cases bodySection with
  | full => exact absurd rfl partly
  | header | text | mime | headerFields =>
      simp only [loadRawFetchBytes, bind_eq, bind_assoc]
      congr 1
      funext raw
      cases raw <;> rfl

theorem agrees_part {path : String} {bodySection : FetchBodySection} (partly : bodySection ≠ .full)
    (range : Nat × Option Nat) (world : World) :
    RangeAgrees source (.part path bodySection) range world := by
  refine agrees_of_map ?_ world
  cases bodySection with
  | full => exact absurd rfl partly
  | header | text | mime | headerFields =>
      simp only [loadRawFetchBytes, bind_eq, bind_assoc]
      congr 1
      funext part
      cases part with
      | none => rfl
      | some part => exact loadPart_range ..

/-! ## Ranges of stored objects -/

theorem getObjectRange_stored {key : String} {bytes : Bytes} (stored : world.blob key = some bytes)
    (range : Nat × Option Nat) :
    world.getObjectRange key range.1 (range.2.map (saturatingEnd range.1)) =
      some (applyPartial bytes (some range)) := by
  obtain ⟨offset, count⟩ := range
  simp only [World.getObjectRange, stored, Option.map_some, applyPartial]
  cases count with
  | none => simp only [Option.map_none, Option.getD_none, min_self]
  | some count => simp only [Option.map_some, Option.getD_some]

theorem getObjectRange_missing {key : String} (missing : world.blob key = none) (start : Nat)
    (stop : Option Nat) : world.getObjectRange key start stop = none := by
  simp only [World.getObjectRange, missing, Option.map_none]

theorem loadRange_stored (source : Source) {key : String} {bytes : Bytes} (stored : world.blob key = some bytes)
    (range : Nat × Option Nat) :
    ∃ world', (loadRange source key range.1 range.2).eval (cacheHandler source.lib) world =
      (.ok (some (applyPartial bytes (some range))), world') := by
  have read : world.perform source.lib (.getObjectRange key range.1 (range.2.map (saturatingEnd range.1))) =
      (.ok (some (applyPartial bytes (some range))), world) := by
    rw [← getObjectRange_stored stored range]
    rfl
  unfold loadRange
  rw [bind_eq, eval_await_bind read]
  exact ⟨_, rfl⟩

theorem loadRange_missing {key : String} (missing : world.blob key = none) (range : Nat × Option Nat) :
    (loadRange source key range.1 range.2).eval (cacheHandler source.lib) world = (.ok none, world) := by
  have read : world.perform source.lib (.getObjectRange key range.1 (range.2.map (saturatingEnd range.1))) =
      (.ok none, world) := by
    rw [← getObjectRange_missing missing range.1 (range.2.map (saturatingEnd range.1))]
    rfl
  unfold loadRange
  rw [bind_eq, eval_await_bind read]
  rfl

theorem getObject_stored (lib : Libraries) {key : String} {bytes : Bytes} (stored : world.blob key = some bytes) :
    world.perform lib (.getObject key) = (.ok (some bytes), world) ∨
      ∃ failure, world.perform lib (.getObject key) = (.error failure, world) := by
  change world.getObject lib key = _ ∨ ∃ failure, world.getObject lib key = _
  simp only [World.getObject, stored]
  cases validateContentAddressedBytes lib key bytes with
  | error failure => exact .inr ⟨failure, rfl⟩
  | ok _ => exact .inl rfl

theorem getObject_missing (lib : Libraries) {key : String} (missing : world.blob key = none) :
    world.perform lib (.getObject key) = (.ok none, world) := by
  change world.getObject lib key = _
  simp only [World.getObject, missing]

theorem loadRaw_stored {bytes : Bytes} (stored : world.blob source.view.rfc822BlobKey = some bytes)
    {loaded : Option Bytes} (ends : outcome source (loadRaw source) world = .ok loaded) :
    loaded = some bytes := by
  unfold outcome loadRaw at ends
  rw [bind_eq] at ends
  rcases getObject_stored source.lib stored with read | ⟨failure, refused⟩
  · rw [eval_await_bind read] at ends
    cases ends
    rfl
  · rw [eval_await_bind_error refused] at ends
    cases ends

theorem loadRaw_missing (missing : world.blob source.view.rfc822BlobKey = none) :
    (loadRaw source).eval (cacheHandler source.lib) world =
      (rehydrateMissingRawBlob source).eval (cacheHandler source.lib) world := by
  unfold loadRaw
  rw [bind_eq, eval_await_bind (getObject_missing source.lib missing)]

theorem agrees_whole_full (range : Nat × Option Nat) (world : World) :
    RangeAgrees source (.whole .full) range world := by
  intro loaded whole
  have raw : outcome source (loadRaw source) world = .ok loaded := by
    have same : loadRawFetchBytes source (.whole .full) none =
        (loadRaw source).bind fun raw => .ret (raw.map fun raw => raw) := rfl
    rw [same, outcome_map] at whole
    cases ended : outcome source (loadRaw source) world with
    | error failure =>
        rw [ended] at whole
        cases whole
    | ok value =>
        rw [ended] at whole
        cases value <;> exact whole
  unfold outcome
  simp only [loadRawFetchBytes, bind_eq, eval_bind]
  cases stored : world.blob source.view.rfc822BlobKey with
  | some bytes =>
      obtain rfl := loadRaw_stored stored raw
      obtain ⟨world', ranged⟩ := loadRange_stored source stored range
      rw [ranged]
      rfl
  | none =>
      unfold outcome at raw
      rw [loadRaw_missing stored] at raw
      rw [loadRange_missing stored range]
      simp only [Option.isSome_none, Bool.false_eq_true, if_false, eval_bind]
      rcases ended : (rehydrateMissingRawBlob source).eval (cacheHandler source.lib) world with ⟨result, world'⟩
      rw [ended] at raw
      obtain rfl : result = .ok loaded := raw
      rfl

/-! ## Restoring a part -/

theorem upsertCacheObject_ok {db : Db} {input : CacheObject} (known : ∀ id, input.accountId = some id →
    db.hasAccount id = true) : ∃ db', db.upsertCacheObject input = .ok ((), db') := by
  have noAccount : (input.accountId.any fun id => !db.hasAccount id) = false := by
    cases account : input.accountId with
    | none => rfl
    | some id => simp [known id account]
  unfold Db.upsertCacheObject
  rw [noAccount]
  simp only [Bool.false_eq_true, if_false]
  split
  · exact ⟨_, rfl⟩
  · rename_i refused
    exfalso
    rcases Table.upsert_eq_none refused with ⟨old, found, other, member, ne, clash⟩ | ⟨absent, other, member, clash⟩
    · have apart := (db.cacheObjects.distinct.forall member (Table.mem_of_find found).1 ne).2
      have same : cacheObjectKeys.admits other.data old.data = false := clash
      rw [apart] at same
      cases same
    · have free := Table.find_none.mp absent other member
      simp only [cacheObjectKeys, Constraint.unique, decide_eq_false_iff_not, not_or, not_not] at clash
      obtain ⟨some, same⟩ := clash
      cases left : other.data.accountId with
      | none => simp [left] at some
      | some id =>
          cases right : input.accountId with
          | none => simp [left, right] at same
          | some id' =>
              simp only [left, right, Option.map_some, Option.some.injEq, Prod.mk.injEq] at same
              obtain ⟨rfl, types, keys⟩ := same
              simp [left, right, types, keys] at free

theorem touchCacheObject_ok (db : Db) (now : Time) (accountId : Int) (blobKey : String) :
    ∃ touched db', db.touchCacheObject now accountId blobKey = .ok (touched, db') := by
  unfold Db.touchCacheObject
  obtain ⟨t, changed⟩ := db.cacheObjects.modify_of_keeps
    (fun row => row.data.accountId == some accountId && row.data.blobKey == blobKey)
    (show ∀ a b, cacheObjectKeys.admits { a with lastAccessedAt := some now } b = cacheObjectKeys.admits a b from
      fun _ _ => rfl)
  simp only [changed]
  exact ⟨_, _, rfl⟩

theorem recordObject_ok (lib : Libraries) {accountId : Int} (known : world.db.hasAccount accountId = true)
    (objectType : String) (metadata : ObjectMetadata) :
    ∃ world', (recordObject accountId objectType metadata).eval (cacheHandler lib) world = (.ok (), world') := by
  have read : world.perform lib (.findCacheObjectByAccountTypeAndBlobKey accountId objectType metadata.key) =
      (.ok (world.db.findCacheObjectByAccountTypeAndBlobKey accountId objectType metadata.key), world) := rfl
  unfold recordObject
  rw [bind_eq, eval_await_bind read]
  split
  · obtain ⟨db', written⟩ : ∃ db', world.db.upsertCacheObject
        { Ingest.newCacheObject accountId objectType metadata with lastAccessedAt := some world.now } =
          .ok ((), db') :=
      upsertCacheObject_ok fun id same => by
        cases same
        exact known
    refine ⟨{ world with db := db' }, ?_⟩
    rw [eval_ask, cacheHandler_exec]
    exact World.commit_of_ok written
  · obtain ⟨touched, db', written⟩ := touchCacheObject_ok world.db world.now accountId metadata.key
    have done : world.perform lib (.touchCacheObject accountId metadata.key) =
        (.ok touched, { world with db := db' }) := World.commit_of_ok written
    rw [bind_eq, eval_await_bind done]
    exact ⟨_, rfl⟩

theorem accounts_unwritten {op : Op} (auxiliary : op.auxiliary = true) : Component.accounts ∉ op.writes := by
  cases op with
  | setMailAccountSyncStatus => cases auxiliary
  | _ => simp [Op.writes]

theorem rehydrate_accounts (source : Source) (world : World) :
    ((rehydrateMissingRawBlob source).eval (cacheHandler source.lib) world).2.db.accounts = world.db.accounts := by
  have uses : (rehydrateMissingRawBlob source).Uses (fun op : Op => Component.accounts ∉ op.writes) :=
    rehydrateMissingRawBlob_uses (fun _ loading => accounts_unwritten (Op.auxiliary_of_loading loading))
      (fun _ _ => by simp [Op.writes]) source
  have ensures : (rehydrateMissingRawBlob source).Ensures (cacheHandler source.lib) (noFault Error)
      (fun _ s => s.db.accounts = world.db.accounts) (fun _ s => s.db.accounts = world.db.accounts) world :=
    uses.ensures (fun op s unwritten same => (World.perform_frame source.lib s op .accounts unwritten).trans same) rfl
  obtain ⟨ok, failed⟩ := ensures.eval
  cases ended : ((rehydrateMissingRawBlob source).eval (cacheHandler source.lib) world).1 with
  | ok value => exact ok value ended
  | error failure => exact failed failure ended

theorem rehydrate_hasAccount {raw : Bytes}
    (available : outcome source (rehydrateMissingRawBlob source) world = .ok (some raw)) :
    world.db.hasAccount source.accountId = true := by
  unfold outcome rehydrateMissingRawBlob at available
  cases uid : source.view.upstreamUid with
  | none =>
      rw [uid] at available
      cases available
  | some upstreamUid =>
      rw [uid] at available
      have read : world.perform source.lib (.findAccountByIdAnyState source.accountId) =
          (.ok (world.db.findAccountByIdAnyState source.accountId), world) := rfl
      simp only [bind_eq] at available
      rw [eval_await_bind read] at available
      cases found : world.db.findAccountByIdAnyState source.accountId with
      | none =>
          rw [found] at available
          cases available
      | some account =>
          unfold Db.findAccountByIdAnyState at found
          simp [Db.hasAccount, found]

/-- The part can be taken from the raw message and put back under its key. -/
def Restorable (lib : Libraries) (raw : Bytes) (storedPath blobKey : String) : Prop :=
  ∃ parsed record, lib.parseMessage raw = .ok parsed ∧
    parsed.mimeParts.find? (·.partPath == storedPath) = some record ∧
    validateContentAddressedBytes lib blobKey record.rawBytes = .ok ()

/-- What `restorePart` does once it has the raw message. -/
def restoreFrom (source : Source) (part : MimePart) (storedPath : String) (raw : Bytes) :
    Action (Option Bytes) := do
  let parsed ← Prog.ofExcept (source.lib.parseMessage raw)
  let some record := parsed.mimeParts.find? (·.partPath == storedPath) | pure none
  let metadata ← await (.putObject part.blobKey record.rawBytes)
  recordObject source.accountId (cacheObjectTypeForMimePart part) metadata
  pure (some record.rawBytes)

theorem restorePart_eq (source : Source) (part : MimePart) (storedPath : String) :
    restorePart source part storedPath =
      (await (.getObject source.view.rfc822BlobKey)).bind fun stored =>
        (orLoad stored (rehydrateMissingRawBlob source)).bind fun
          | some raw => restoreFrom source part storedPath raw
          | none => .ret none := by
  unfold restorePart
  simp only [bind_eq]
  congr 1
  funext stored
  congr 1
  funext raw
  cases raw <;> rfl

theorem restoreFrom_eval {world : World} (known : world.db.hasAccount source.accountId = true) {raw : Bytes}
    {part : MimePart} {storedPath : String} (restorable : Restorable source.lib raw storedPath part.blobKey) :
    ∃ bytes world', (restoreFrom source part storedPath raw).eval (cacheHandler source.lib) world =
      (.ok (some bytes), world') := by
  obtain ⟨parsed, record, parses, found, addressed⟩ := restorable
  have put : world.perform source.lib (.putObject part.blobKey record.rawBytes) =
      (.ok ⟨part.blobKey, source.lib.sha256 record.rawBytes, record.rawBytes.length⟩,
        { world with blobs := (part.blobKey, record.rawBytes) :: world.blobs }) := by
    change world.putObject source.lib part.blobKey record.rawBytes = _
    simp only [World.putObject, addressed]
  unfold restoreFrom
  rw [parses]
  simp only [Prog.ofExcept, bind_eq, ret_bind, found]
  rw [eval_await_bind put, eval_bind]
  obtain ⟨world', recorded⟩ := recordObject_ok source.lib
    (show ({ world with blobs := (part.blobKey, record.rawBytes) :: world.blobs } : World).db.hasAccount
      source.accountId = true from known) (cacheObjectTypeForMimePart part)
    ⟨part.blobKey, source.lib.sha256 record.rawBytes, record.rawBytes.length⟩
  rw [recorded]
  exact ⟨_, _, rfl⟩

theorem restorePart_eval {raw : Bytes} {part : MimePart} {storedPath : String}
    (available : outcome source (rehydrateMissingRawBlob source) world = .ok (some raw))
    (intact : validateContentAddressedBytes source.lib source.view.rfc822BlobKey
      ((world.blob source.view.rfc822BlobKey).getD raw) = .ok ())
    (restorable : Restorable source.lib ((world.blob source.view.rfc822BlobKey).getD raw) storedPath
      part.blobKey) :
    ∃ bytes world', (restorePart source part storedPath).eval (cacheHandler source.lib) world =
      (.ok (some bytes), world') := by
  have known := rehydrate_hasAccount available
  rw [restorePart_eq]
  cases stored : world.blob source.view.rfc822BlobKey with
  | some text =>
      rw [stored, Option.getD_some] at intact restorable
      have read : world.perform source.lib (.getObject source.view.rfc822BlobKey) = (.ok (some text), world) := by
        change world.getObject source.lib source.view.rfc822BlobKey = _
        simp only [World.getObject, stored, intact]
      rw [eval_await_bind read]
      exact restoreFrom_eval known restorable
  | none =>
      rw [stored, Option.getD_none] at restorable
      rw [eval_await_bind (getObject_missing source.lib stored), eval_bind]
      have accounts := rehydrate_accounts source world
      unfold outcome at available
      rcases ended : (rehydrateMissingRawBlob source).eval (cacheHandler source.lib) world with ⟨result, world'⟩
      rw [ended] at available accounts
      obtain rfl : result = .ok (some raw) := available
      simp only [orLoad, ended]
      refine restoreFrom_eval ?_ restorable
      unfold Db.hasAccount at known ⊢
      rw [accounts]
      exact known

/-! ## Agreement -/

/-- The section is the whole of a part whose object is gone, although the raw message, stored or else as
the upstream server has it, still holds the part. -/
def MissedPart (source : Source) (bodySection : RawFetchSection) (raw : Bytes) (world : World) : Prop :=
  ∃ path part, bodySection = .part path .full ∧
    world.db.findMimePartByMessageAndPath source.accountId source.view.messageId ("1." ++ path) = some part ∧
    world.blob part.data.blobKey = none ∧
    validateContentAddressedBytes source.lib source.view.rfc822BlobKey
      ((world.blob source.view.rfc822BlobKey).getD raw) = .ok () ∧
    Restorable source.lib ((world.blob source.view.rfc822BlobKey).getD raw) ("1." ++ path) part.data.blobKey

theorem mimePartFetchBytes_full (raw : Bytes) (part : MimePart) : mimePartFetchBytes raw part .full = raw := by
  unfold mimePartFetchBytes rawFetchBytes
  split <;> rfl

section
variable {path : String} {part : Row MimePart}

theorem loadFull_eval (source : Source) (range : Option (Nat × Option Nat))
    (found : world.db.findMimePartByMessageAndPath source.accountId source.view.messageId ("1." ++ path) =
      some part) :
    outcome source (loadRawFetchBytes source (.part path .full) range) world =
      outcome source (match range with
        | some range => loadRange source part.data.blobKey range.1 range.2
        | none => loadPart source part.data ("1." ++ path) .full none) world := by
  have read : world.perform source.lib
      (.findMimePartByMessageAndPath source.accountId source.view.messageId ("1." ++ path)) =
      (.ok (some part), world) := by
    rw [← found]
    rfl
  unfold outcome
  simp only [loadRawFetchBytes, bind_eq]
  rw [eval_await_bind read]
  cases range <;> rfl

theorem agrees_part_stored (range : Nat × Option Nat)
    (found : world.db.findMimePartByMessageAndPath source.accountId source.view.messageId ("1." ++ path) =
      some part) {bytes : Bytes} (stored : world.blob part.data.blobKey = some bytes) :
    RangeAgrees source (.part path .full) range world := by
  intro loaded whole
  rw [loadFull_eval source none found] at whole
  rw [loadFull_eval source (some range) found]
  obtain ⟨world', ranged⟩ := loadRange_stored source stored range
  unfold outcome at whole ⊢
  simp only [ranged]
  unfold loadPart at whole
  simp only [bind_eq] at whole
  rcases getObject_stored source.lib stored with read | ⟨failure, refused⟩
  · rw [eval_await_bind read] at whole
    simp only [orLoad, pure_eq, ret_bind, mimePartFetchBytes_full] at whole
    cases whole
    rfl
  · rw [eval_await_bind_error refused] at whole
    cases whole

theorem agrees_part_unknown (range : Nat × Option Nat)
    (unknown : world.db.findMimePartByMessageAndPath source.accountId source.view.messageId ("1." ++ path) =
      none) : RangeAgrees source (.part path .full) range world := by
  have read : world.perform source.lib
      (.findMimePartByMessageAndPath source.accountId source.view.messageId ("1." ++ path)) =
      (.ok none, world) := by
    rw [← unknown]
    rfl
  intro loaded whole
  unfold outcome at whole ⊢
  simp only [loadRawFetchBytes, bind_eq] at whole ⊢
  rw [eval_await_bind read] at whole ⊢
  cases whole
  rfl

/-- A part that is gone has no range to read; the whole of it is restored from the raw message. -/
theorem differs_of_missed {raw : Bytes} (range : Nat × Option Nat)
    (available : outcome source (rehydrateMissingRawBlob source) world = .ok (some raw))
    (found : world.db.findMimePartByMessageAndPath source.accountId source.view.messageId ("1." ++ path) =
      some part) (missing : world.blob part.data.blobKey = none)
    (intact : validateContentAddressedBytes source.lib source.view.rfc822BlobKey
      ((world.blob source.view.rfc822BlobKey).getD raw) = .ok ())
    (restorable : Restorable source.lib ((world.blob source.view.rfc822BlobKey).getD raw) ("1." ++ path)
      part.data.blobKey) : ¬ RangeAgrees source (.part path .full) range world := by
  intro agrees
  obtain ⟨bytes, world', restored⟩ := restorePart_eval available intact restorable
  have whole : outcome source (loadRawFetchBytes source (.part path .full) none) world = .ok (some bytes) := by
    rw [loadFull_eval source none found]
    unfold outcome loadPart
    simp only [bind_eq]
    rw [eval_await_bind (getObject_missing source.lib missing), eval_bind]
    simp only [orLoad, restored]
    rw [mimePartFetchBytes_full]
    rfl
  have ranged := agrees _ whole
  rw [loadFull_eval source (some range) found, outcome, loadRange_missing missing range] at ranged
  cases ranged

end

/-! ## What a restored part says of the raw message -/

theorem ensures_after {α β : Type} {p : Action α} {f : α → Action β} {h : Handler cacheSignature World}
    {ok : β → World → Prop} (rest : ∀ value world, (f value).Ensures h (noFault Error) ok (fun _ _ => True) world)
    (world : World) : (p.bind f).Ensures h (noFault Error) ok (fun _ _ => True) world := by
  rw [ensures_bind]
  exact ((returns_any p).ensures world).mono (fun value after _ => rest value after) fun _ _ _ => trivial

theorem ensures_put {α : Type} (lib : Libraries) (key : String) (bytes : Bytes)
    {f : ObjectMetadata → Action α} {ok : α → World → Prop}
    (rest : validateContentAddressedBytes lib key bytes = .ok () → ∀ metadata world,
      (f metadata).Ensures (cacheHandler lib) (noFault Error) ok (fun _ _ => True) world) (world : World) :
    ((await (.putObject key bytes)).bind f).Ensures (cacheHandler lib) (noFault Error) ok
      (fun _ _ => True) world := by
  rw [ensures_bind]
  refine ensures_await fun metadata written => ?_
  change (world.putObject lib key bytes).1 = .ok metadata at written
  cases addressed : validateContentAddressedBytes lib key bytes with
  | error failure =>
      simp only [World.putObject, addressed] at written
      cases written
  | ok _ => exact rest addressed metadata _

theorem rehydrate_intact {raw : Bytes}
    (available : outcome source (rehydrateMissingRawBlob source) world = .ok (some raw)) :
    validateContentAddressedBytes source.lib source.view.rfc822BlobKey raw = .ok () := by
  have ensures : (rehydrateMissingRawBlob source).Ensures (cacheHandler source.lib) (noFault Error)
      (fun result _ => ∀ bytes, result = some bytes →
        validateContentAddressedBytes source.lib source.view.rfc822BlobKey bytes = .ok ())
      (fun _ _ => True) world := by
    unfold rehydrateMissingRawBlob
    split
    · refine ensures_after (fun account world => ?_) world
      split
      · refine ensures_after (fun config world => ?_) world
        split
        · refine ensures_after (fun _ world => ensures_after (fun _ world => ensures_after (fun bytes world =>
            ensures_put source.lib _ _ (fun addressed metadata world =>
              ensures_after (fun _ world => ?_) world) world) world) world) world
          intro other same
          cases same
          exact addressed
        · exact fun _ same => nomatch same
      · exact fun _ same => nomatch same
    · exact fun _ same => nomatch same
  exact ensures.eval.1 _ available raw rfl

theorem restoreFrom_restorable {raw bytes : Bytes} {part : MimePart} {storedPath : String}
    (restored : outcome source (restoreFrom source part storedPath raw) world = .ok (some bytes)) :
    Restorable source.lib raw storedPath part.blobKey := by
  have ensures : (restoreFrom source part storedPath raw).Ensures (cacheHandler source.lib) (noFault Error)
      (fun result _ => ∀ bytes, result = some bytes → Restorable source.lib raw storedPath part.blobKey)
      (fun _ _ => True) world := by
    unfold restoreFrom
    cases parses : source.lib.parseMessage raw with
    | error failure => trivial
    | ok parsed =>
        simp only [Prog.ofExcept, bind_eq, ret_bind]
        cases found : parsed.mimeParts.find? (·.partPath == storedPath) with
        | none => exact fun _ same => nomatch same
        | some record =>
            refine ensures_put source.lib _ _ (fun addressed metadata world =>
              ensures_after (fun _ world => ?_) world) world
            exact fun _ _ => ⟨parsed, record, parses, found, addressed⟩
  exact ensures.eval.1 _ restored bytes rfl

theorem restorePart_restorable {raw bytes : Bytes} {part : MimePart} {storedPath : String}
    (available : outcome source (rehydrateMissingRawBlob source) world = .ok (some raw))
    (restored : outcome source (restorePart source part storedPath) world = .ok (some bytes)) :
    validateContentAddressedBytes source.lib source.view.rfc822BlobKey
        ((world.blob source.view.rfc822BlobKey).getD raw) = .ok () ∧
      Restorable source.lib ((world.blob source.view.rfc822BlobKey).getD raw) storedPath part.blobKey := by
  rw [restorePart_eq] at restored
  unfold outcome at restored
  cases stored : world.blob source.view.rfc822BlobKey with
  | some text =>
      rw [Option.getD_some]
      rcases getObject_stored source.lib stored with read | ⟨failure, refused⟩
      · rw [eval_await_bind read] at restored
        refine ⟨?_, restoreFrom_restorable restored⟩
        change world.getObject source.lib source.view.rfc822BlobKey = _ at read
        simp only [World.getObject, stored] at read
        split at read
        · cases read
        · assumption
      · rw [eval_await_bind_error refused] at restored
        cases restored
  | none =>
      rw [Option.getD_none]
      refine ⟨rehydrate_intact available, ?_⟩
      rw [eval_await_bind (getObject_missing source.lib stored), eval_bind] at restored
      unfold outcome at available
      rcases ended : (rehydrateMissingRawBlob source).eval (cacheHandler source.lib) world with ⟨result, world'⟩
      rw [ended] at available
      obtain rfl : result = .ok (some raw) := available
      simp only [orLoad, ended] at restored
      exact restoreFrom_restorable restored

/-- Without its object, and where it cannot be restored, both fetches of a part have nothing. -/
theorem agrees_part_lost {raw : Bytes} {path : String} {part : Row MimePart} (range : Nat × Option Nat)
    (available : outcome source (rehydrateMissingRawBlob source) world = .ok (some raw))
    (found : world.db.findMimePartByMessageAndPath source.accountId source.view.messageId ("1." ++ path) =
      some part) (missing : world.blob part.data.blobKey = none)
    (lost : ¬ MissedPart source (.part path .full) raw world) :
    RangeAgrees source (.part path .full) range world := by
  intro loaded whole
  rw [loadFull_eval source (some range) found, outcome, loadRange_missing missing range]
  rw [loadFull_eval source none found] at whole
  unfold outcome loadPart at whole
  simp only [bind_eq] at whole
  rw [eval_await_bind (getObject_missing source.lib missing), eval_bind] at whole
  simp only [orLoad] at whole
  rcases ended : (restorePart source part.data ("1." ++ path)).eval (cacheHandler source.lib) world with
    ⟨result, world'⟩
  rw [ended] at whole
  match result with
  | .error failure => cases whole
  | .ok none =>
      cases whole
      rfl
  | .ok (some bytes) =>
      have restored : outcome source (restorePart source part.data ("1." ++ path)) world = .ok (some bytes) := by
        rw [outcome, ended]
      obtain ⟨intact, restorable⟩ := restorePart_restorable available restored
      exact absurd ⟨path, part, rfl, found, missing, intact, restorable⟩ lost

/-- While the upstream copy of the message is available, a partial fetch agrees with the whole one
unless it asks for a range of a part whose object is gone and could be restored. -/
theorem partial_agrees_iff (source : Source) (bodySection : RawFetchSection) (range : Nat × Option Nat)
    (raw : Bytes) (world : World)
    (available : outcome source (rehydrateMissingRawBlob source) world = .ok (some raw)) :
    RangeAgrees source bodySection range world ↔ ¬ MissedPart source bodySection raw world := by
  constructor
  · rintro agrees ⟨path, part, rfl, found, missing, intact, restorable⟩
    exact differs_of_missed range available found missing intact restorable agrees
  · intro lost
    cases bodySection with
    | whole bodySection =>
        by_cases full : bodySection = .full
        · subst full
          exact agrees_whole_full range world
        · exact agrees_whole full range world
    | part path bodySection =>
        by_cases full : bodySection = .full
        · subst full
          cases found : world.db.findMimePartByMessageAndPath source.accountId source.view.messageId
              ("1." ++ path) with
          | none =>
              exact agrees_part_unknown range found
          | some part =>
              cases stored : world.blob part.data.blobKey with
              | some bytes => exact agrees_part_stored range found stored
              | none => exact agrees_part_lost range available found stored lost
        · exact agrees_part full range world

/-! ## A part whose object is gone -/

/-- A message with one part, whose decoded text is `body`. -/
def mixedMessage : Bytes :=
  Sample.text ("Content-Type: multipart/mixed; boundary=b\r\n\r\n--b\r\n" ++
    "Content-Transfer-Encoding: base64\r\n\r\nYm9keQ==\r\n--b--\r\n")

def mixedDigest : String := "0ffcfa1dc11a8500439a2c1afdae9467a6d64dd28f0d4e6f7894889200e16c22"

def mixedPart : MimePartRecord :=
  { partPath := "1.1", contentType := "text/plain", charset := some "us-ascii"
    disposition := some "inline", filename := none, contentId := none, sizeOctets := 4
    blobKey := "MimePart/" ++ Sample.sha256 Sample.bodyText, sha256 := Sample.sha256 Sample.bodyText
    transferEncoding := some "base64"
    metadataJson := .obj [("path", .str "1.1"), ("content_type", .str "text/plain")]
    rawBytes := Sample.bodyText }

/-- The libraries on that message: its digest, and its parse as far as it is read here. -/
def mixedLibraries : Libraries :=
  { Sample.libraries with
    sha256 := fun bytes => if bytes = mixedMessage then mixedDigest else Sample.sha256 bytes
    parseMessage := fun raw =>
      if raw = mixedMessage then .ok { Sample.parsedText raw "" with subject := none, mimeParts := [mixedPart] }
      else Sample.parseMessage raw }

def mixedSource : Source where
  lib := mixedLibraries
  connection := 0
  accountId := 1
  mailboxName := "INBOX"
  view := { Sample.view 1 [] "" with
    upstreamUid := some 1, rfc822BlobKey := "Rfc822/" ++ mixedDigest, subject := none }

def mixedDb : Db :=
  { Sample.db [Sample.mailbox "INBOX" (some 7)] [Sample.row 1 1 (some 1) []] with
    messages := .ofList [{ Sample.message mixedMessage with
      rfc822BlobKey := "Rfc822/" ++ mixedDigest, rfc822Sha256 := mixedDigest, subject := none }]
    mimeParts := .ofList [{ messageId := 1, partPath := "1.1", contentType := "text/plain"
                            charset := some "us-ascii", disposition := some "inline"
                            filename := none, contentId := none, sizeOctets := 4
                            blobKey := mixedPart.blobKey, sha256 := mixedPart.sha256
                            transferEncoding := some "base64"
                            metadataJson := mixedPart.metadataJson }] }

def mixedServer : Upstream where
  mailboxes := [Sample.withMessages (Sample.upstreamMailbox "INBOX" (some 7)) [mixedMessage]]
  uidplus := true
  distinct := List.pairwise_singleton _ _

/-- The message is stored and upstream; the object of its part is not in the store. -/
def mixedWorld : World :=
  { Sample.world mixedDb mixedServer with blobs := [("Rfc822/" ++ mixedDigest, mixedMessage)] }

theorem mixed_available :
    outcome mixedSource (rehydrateMissingRawBlob mixedSource) mixedWorld = .ok (some mixedMessage) := by
  decide +kernel

/-- A range of the whole message agrees with the message. -/
theorem mixed_message_agrees : RangeAgrees mixedSource (.whole .full) (0, some 4) mixedWorld := by
  refine (partial_agrees_iff mixedSource (.whole .full) (0, some 4) mixedMessage mixedWorld mixed_available).mpr ?_
  rintro ⟨path, part, same, -⟩
  cases same

theorem mixed_part_whole :
    outcome mixedSource (loadRawFetchBytes mixedSource (.part "1" .full) none) mixedWorld =
      .ok (some Sample.bodyText) := by
  decide +kernel

theorem mixed_part_range :
    outcome mixedSource (loadRawFetchBytes mixedSource (.part "1" .full) (some (0, some 4))) mixedWorld =
      .ok none := by
  decide +kernel

/-- The whole of the part is restored, and a range of it is missing. -/
theorem mixed_part_differs :
    outcome mixedSource (rehydrateMissingRawBlob mixedSource) mixedWorld = .ok (some mixedMessage) ∧
    ¬ RangeAgrees mixedSource (.part "1" .full) (0, some 4) mixedWorld := by
  refine ⟨mixed_available, ?_⟩
  intro agrees
  have range := agrees _ mixed_part_whole
  rw [mixed_part_range] at range
  cases range

end ImapCache.RawFetch
