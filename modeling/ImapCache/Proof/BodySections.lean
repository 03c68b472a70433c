import ImapCache.Model.Sample
import ImapCache.Proof.PartialFetch
import ImapCache.Proof.RowSearch

/-!
# Sections of a message

The ranges of a section put together are the section, and so are the header and the text of a
message. A header is not cut into its fields: the last one is found twice.
-/

namespace ImapCache.BodySections
open Lib RawFetch Search Commands Mutations

/-! ## Ranges put together -/

def usizeMax : Nat := 18446744073709551615

/-- What a client gets that asks for `<0.size>`, `<size.size>`, and so on. -/
def ranges (bytes : Bytes) (size count : Nat) : List Bytes :=
  (List.range count).map fun k => applyPartial bytes (some (k * size, some size))

theorem applyPartial_window {bytes : Bytes} (fits : bytes.length ≤ usizeMax) (offset size : Nat) :
    applyPartial bytes (some (offset, some size)) = (bytes.drop offset).take size := by
  simp only [applyPartial]
  split
  · rename_i behind
    rw [List.drop_eq_nil_of_le behind, List.take_nil]
  · have stop : min (saturatingEnd offset size) bytes.length = min (offset + size) bytes.length := by
      rw [saturatingEnd, min_assoc]
      congr 1
      exact min_eq_right fits
    rw [stop, ← List.take_eq_take_min, List.take_drop]

theorem flatten_ranges {bytes : Bytes} (fits : bytes.length ≤ usizeMax) (size count : Nat) :
    (ranges bytes size count).flatten = bytes.take (count * size) := by
  induction count with
  | zero => simp [ranges]
  | succ count ih =>
      have last : ranges bytes size (count + 1) =
          ranges bytes size count ++ [applyPartial bytes (some (count * size, some size))] := by
        rw [ranges, List.range_succ, List.map_append]
        rfl
      rw [last, List.flatten_append, ih, applyPartial_window fits, Nat.succ_mul, List.take_add]
      simp

theorem flatten_ranges_all {bytes : Bytes} (fits : bytes.length ≤ usizeMax) {size count : Nat}
    (reached : bytes.length ≤ count * size) : (ranges bytes size count).flatten = bytes := by
  rw [flatten_ranges fits, List.take_of_length_le reached]

/-! ## The header and the text -/

theorem headerEnd_eq_some {raw : Bytes} {index : Nat} (found : headerEnd raw = some index) :
    raw = raw.take index ++ crlf ++ crlf ++ raw.drop (index + 4) := by
  induction raw generalizing index with
  | nil => cases found
  | cons byte rest ih =>
      simp only [headerEnd] at found
      split at found
      · rename_i starts
        cases found
        obtain ⟨body, eq⟩ := List.isPrefixOf_iff_prefix.mp starts
        rw [← eq]
        rfl
      · obtain ⟨before, foundRest, rfl⟩ := Option.map_eq_some_iff.mp found
        have eq := ih foundRest
        rw [show before + 1 + 4 = before + 4 + 1 by omega, List.take_succ_cons, List.drop_succ_cons]
        simp only [List.cons_append]
        rw [← eq]

theorem headerEnd_isSome {raw : Bytes} (divided : crlf ++ crlf <:+: raw) :
    ∃ index, headerEnd raw = some index := by
  obtain ⟨before, body, rfl⟩ := divided
  induction before with
  | nil => exact ⟨0, rfl⟩
  | cons byte before ih =>
      obtain ⟨index, found⟩ := ih
      simp only [List.cons_append, headerEnd]
      split
      · exact ⟨0, rfl⟩
      · exact ⟨index + 1, by rw [found]; rfl⟩

theorem header_append_text {raw : Bytes} (divided : crlf ++ crlf <:+: raw) :
    rawFetchBytes raw .header ++ rawFetchBytes raw .text = raw := by
  obtain ⟨index, found⟩ := headerEnd_isSome divided
  have eq := headerEnd_eq_some found
  have header : raw.take (index + 2) = raw.take index ++ crlf := by
    have length : (raw.take index).length = index := by
      have bound : index + 4 ≤ raw.length := by
        have total := congrArg List.length eq
        simp only [List.length_append, List.length_take, List.length_drop, crlf, List.length_cons,
          List.length_nil] at total
        omega
      rw [List.length_take, min_eq_left (by omega)]
    conv => lhs; rw [eq]
    rw [List.append_assoc, List.append_assoc, List.take_append, List.take_append, length]
    simp [crlf, List.take_take]
  simp only [rawFetchBytes, splitRfc822, found, header]
  exact eq.symm

/-- What a client gets for the same ranges where the object store reads them. -/
def storedRanges (world : World) (key : String) (size count : Nat) : List (Option Bytes) :=
  (List.range count).map fun k =>
    world.getObjectRange key (k * size) ((some size).map (saturatingEnd (k * size)))

theorem storedRanges_eq {world : World} {key : String} {raw : Bytes} (stored : world.blob key = some raw)
    (size count : Nat) : storedRanges world key size count = (ranges raw size count).map some := by
  rw [storedRanges, ranges, List.map_map]
  apply List.map_congr_left
  intro k _
  exact getObjectRange_stored stored (k * size, some size)

/-- A client that asks for ranges of one size up to the end of a section gets the section, be it of
the message or of a part, and so it does where the object store reads the ranges. The header and the
text are the message. -/
theorem body_reassembled (raw : Bytes) (size count : Nat) :
    (∀ bodySection, (rawFetchBytes raw bodySection).length ≤ usizeMax →
      (rawFetchBytes raw bodySection).length ≤ count * size →
        (ranges (rawFetchBytes raw bodySection) size count).flatten =
          rawFetchBytes raw bodySection) ∧
    (∀ part bodySection, (mimePartFetchBytes raw part bodySection).length ≤ usizeMax →
      (mimePartFetchBytes raw part bodySection).length ≤ count * size →
        (ranges (mimePartFetchBytes raw part bodySection) size count).flatten =
          mimePartFetchBytes raw part bodySection) ∧
    (∀ (world : World) key, world.blob key = some raw → raw.length ≤ usizeMax →
      raw.length ≤ count * size →
        ∃ pieces : List Bytes, storedRanges world key size count = pieces.map some ∧ pieces.flatten = raw) ∧
    (crlf ++ crlf <:+: raw → rawFetchBytes raw .header ++ rawFetchBytes raw .text = raw) := by
  refine ⟨?message, ?part, ?stored, header_append_text⟩
  case message =>
    intro bodySection fits reached
    exact flatten_ranges_all fits reached
  case part =>
    intro part bodySection fits reached
    exact flatten_ranges_all fits reached
  case stored =>
    intro world key stored fits reached
    exact ⟨_, storedRanges_eq stored size count, flatten_ranges_all fits reached⟩

def sampleMessage : Bytes := utf8 "A: 1\r\nB: 2\r\n\r\nbody\r\n"

theorem body_reassembled_sample :
    (ranges (rawFetchBytes sampleMessage .text) 4 2).flatten = rawFetchBytes sampleMessage .text ∧
      rawFetchBytes sampleMessage .header ++ rawFetchBytes sampleMessage .text = sampleMessage := by
  obtain ⟨message, -, -, divided⟩ := body_reassembled sampleMessage 4 2
  have within : (rawFetchBytes sampleMessage .text).length ≤ usizeMax ∧
      (rawFetchBytes sampleMessage .text).length ≤ 2 * 4 := by decide +kernel
  exact ⟨message .text within.1 within.2,
    divided ⟨utf8 "A: 1\r\nB: 2", utf8 "body\r\n", by decide +kernel⟩⟩

end ImapCache.BodySections
