import ImapCache.Proof.PartNumbers

/-!
# Parts read again

A part whose object is gone is taken from the raw message, which is parsed once more for that, and the
first record under the path of the part is taken. No path is there twice, so the record is the one that
was made when the message came in, and its bytes are stored again under the same key.
-/

namespace ImapCache.PartNumbers
open Mime

variable (lib : Libraries) (parseMail : Bytes → Except String ParsedMail)

/-- The parts that `parse_message` finds in a raw message. -/
def parseMessageParts (raw : Bytes) : Except Error (List MimePartRecord) :=
  match parseMail raw with
  | .error err => .error (.parse ("failed to parse RFC822 message: " ++ err))
  | .ok parsed => mimeParts lib parsed

def extractPartBytes (raw : Bytes) (partPath : String) : Except Error (Option Bytes) := do
  let parts ← parseMessageParts lib parseMail raw
  pure ((parts.find? (·.partPath == partPath)).map (·.rawBytes))

variable {lib parseMail} {mail : ParsedMail} {parts : List MimePartRecord}

theorem record_of_mem (built : mimeParts lib mail = .ok parts) {record : MimePartRecord}
    (member : record ∈ parts) : ∃ place ∈ messagePlaces mail,
      IsRecord lib place record ∧ (place, record) ∈ (messagePlaces mail).zip parts := by
  have recorded := mimeParts_records built
  obtain ⟨i, bound, rfl⟩ := List.mem_iff_getElem.mp member
  have length := recorded.length_eq
  have inZip : i < ((messagePlaces mail).zip parts).length := by
    rw [List.length_zip]
    omega
  have pair : ((messagePlaces mail)[i], parts[i]) ∈ (messagePlaces mail).zip parts := by
    rw [← List.getElem_zip (h := inZip)]
    exact List.getElem_mem _
  exact ⟨_, List.getElem_mem _, (List.forall₂_iff_zip.mp recorded).2 pair, pair⟩

theorem paths_of_records {places : List Place} (recorded : List.Forall₂ (IsRecord lib) places parts) :
    parts.map (·.partPath) = places.map fun place => numberText place.stored := by
  induction recorded with
  | nil => rfl
  | cons isRecord _ ih =>
      obtain ⟨rawBytes, -, rfl⟩ := isRecord
      rw [List.map_cons, List.map_cons, ih]
      rfl

theorem paths_nodup (built : mimeParts lib mail = .ok parts) : (parts.map (·.partPath)).Nodup := by
  rw [paths_of_records (mimeParts_records built), List.Nodup, List.pairwise_map]
  refine List.Pairwise.imp_of_mem ?_ (places_apart _ _ mail : (messagePlaces mail).Pairwise Apart)
  intro place other member isOther apart same
  exact apart (numberText_injective (messagePlaces_ne_nil member) (messagePlaces_ne_nil isOther) same)

/-- Of a message that is read, no two parts have one path, and every part is found again by its path, with
the bytes that were recorded, which the store takes under the key of the part. -/
theorem parts_rehydrate (lib : Libraries) (parseMail : Bytes → Except String ParsedMail) (raw : Bytes)
    (parts : List MimePartRecord) (accepted : parseMessageParts lib parseMail raw = .ok parts) :
    (parts.map (·.partPath)).Nodup ∧ ∀ record ∈ parts,
      extractPartBytes lib parseMail raw record.partPath = .ok (some record.rawBytes) ∧
      (∃ objectType, contentAddressedKey lib objectType record.rawBytes = record.blobKey) ∧
      validateContentAddressedBytes lib record.blobKey record.rawBytes = .ok () := by
  obtain ⟨mail, built⟩ : ∃ mail, mimeParts lib mail = .ok parts := by
    unfold parseMessageParts at accepted
    split at accepted
    · cases accepted
    · exact ⟨_, accepted⟩
  refine ⟨paths_nodup built, fun record member => ?_⟩
  obtain ⟨place, -, ⟨rawBytes, -, rfl⟩, pair⟩ := record_of_mem built member
  have found := find_record (mimeParts_records built) (places_apart ..)
    (fun _ inMessage => messagePlaces_ne_nil inMessage) pair
  refine ⟨?_, ⟨_, rfl⟩, Ingest.validate_key lib _ rawBytes⟩
  unfold extractPartBytes
  rw [accepted]
  change Except.ok ((parts.find? fun part => part.partPath == numberText place.stored).map (·.rawBytes)) = _
  rw [found]
  rfl

/-- Two texts with the same bytes are found each by its own path. -/
theorem parts_rehydrate_multipart :
    extractPartBytes Sample.libraries (fun _ => .ok multipartMail) [] "1.2" =
      .ok (some (textRecord "1.2").rawBytes) :=
  ((parts_rehydrate Sample.libraries (fun _ => .ok multipartMail) []
    [textRecord "1.1", textRecord "1.2"] rfl).2 (textRecord "1.2")
    (List.mem_cons_of_mem _ (List.mem_singleton.mpr rfl))).1

end ImapCache.PartNumbers
