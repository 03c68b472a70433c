import ImapCache.Model.Protocol

/-!
# Sets of results

`format_number_set` on 64-bit numbers: the number after the end of the open range is computed for every
value that follows, and there is none after the largest number.
-/

namespace ImapCache.Protocol

/-- `n + 1` of a 64-bit number; nothing if it overflows. -/
def u64Succ (n : UInt64) : Option UInt64 := if n = 18446744073709551615 then none else some (n + 1)

/-- The loop of `format_number_set`, `(first, last)` being the open range. -/
def numberRangesU64 (first last : UInt64) : List UInt64 → Option (List String)
  | [] => some [formatRange first.toNat last.toNat]
  | value :: values => do
      let next ← u64Succ last
      if value = next then numberRangesU64 first value values
      else do
        let ranges ← numberRangesU64 value value values
        some (formatRange first.toNat last.toNat :: ranges)

def formatNumberSetU64 (values : List UInt64) : Option String :=
  match (values.insertionSort (· ≤ ·)).destutter (· ≠ ·) with
  | [] => some ""
  | first :: values => (numberRangesU64 first first values).map (",".intercalate ·)

end ImapCache.Protocol
