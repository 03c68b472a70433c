import Mathlib.Data.List.Basic
import Mathlib.Order.Basic

/-!
# Mirrors of a numbered source

A source numbers its items within an epoch. A mirror keeps copies of them and remembers the epoch
and a number up to which it has copied. The states of the source are listed from the most recent
one back.
-/

namespace ImapCache.Lib

structure Snapshot (V B : Type) where
  epoch : V
  holds : Int → B → Prop
  positive : ∀ {u b}, holds u b → 0 < u

namespace Snapshot
variable {V B : Type}

/-- A state that may come next: an epoch that has ended does not return, items keep their contents,
and a number that is new is larger than all earlier ones of its epoch. -/
structure Succeeds (past : List (Snapshot V B)) (next : Snapshot V B) : Prop where
  noReturn : ∀ last, past.head? = some last → ∀ p ∈ past, p.epoch = next.epoch → last.epoch = next.epoch
  larger : ∀ last, past.head? = some last → last.epoch = next.epoch → ∀ u b, next.holds u b →
    (∃ b', last.holds u b') ∨
      ∀ p ∈ past, p.epoch = next.epoch → ∀ u' b', p.holds u' b' → u' < u
  immutable : ∀ p ∈ past, p.epoch = next.epoch → ∀ u b b', p.holds u b → next.holds u b' → b = b'

/-- The copies are of items that the source has or had in its present epoch, and every item of it up
to `last` has been copied. -/
structure Tracks (now : Snapshot V B) (past : List (Snapshot V B)) (copies : Int → B → Prop)
    (last : Int) : Prop where
  genuine : ∀ u b, copies u b → now.holds u b ∨ ∃ p ∈ past, p.epoch = now.epoch ∧ p.holds u b
  covers : ∀ u b, now.holds u b → u ≤ last → ∃ b', copies u b'
  reached : last ≤ 0 ∨ (∃ b, now.holds last b) ∨
    ∃ p ∈ past, p.epoch = now.epoch ∧ ∃ b, p.holds last b

namespace Tracks
variable {now : Snapshot V B} {past : List (Snapshot V B)} {copies copies' : Int → B → Prop} {last : Int}

theorem initial (nothing : ∀ u b, ¬ copies u b) : Tracks now past copies 0 where
  genuine u b copied := absurd copied (nothing u b)
  covers u b held le := absurd (now.positive held) (by omega)
  reached := Or.inl (Int.le_refl 0)

theorem advance {next : Snapshot V B} (tracks : Tracks now past copies last)
    (succeeds : Succeeds (now :: past) next) (same : now.epoch = next.epoch) :
    Tracks next (now :: past) copies last where
  genuine u b copied := by
    right
    rcases tracks.genuine u b copied with here | ⟨p, member, epoch, held⟩
    · exact ⟨now, List.mem_cons_self .., same, here⟩
    · exact ⟨p, List.mem_cons_of_mem _ member, epoch.trans same, held⟩
  covers u b held le := by
    rcases succeeds.larger now rfl same u b held with ⟨b', before⟩ | larger
    · exact tracks.covers u b' before le
    · -- a number that is new exceeds the last one copied
      rcases tracks.reached with zero | ⟨b', held'⟩ | ⟨p, member, epoch, b', held'⟩
      · have := next.positive held
        omega
      · have := larger now (List.mem_cons_self ..) same last b' held'
        omega
      · have := larger p (List.mem_cons_of_mem _ member) (epoch.trans same) last b' held'
        omega
  reached := by
    rcases tracks.reached with zero | held | ⟨p, member, epoch, held⟩
    · exact Or.inl zero
    · exact Or.inr (Or.inr ⟨now, List.mem_cons_self .., same, held⟩)
    · exact Or.inr (Or.inr ⟨p, List.mem_cons_of_mem _ member, epoch.trans same, held⟩)

theorem change (tracks : Tracks now past copies last)
    (genuine : ∀ u b, copies' u b → copies u b ∨ now.holds u b)
    (keeps : ∀ u b b', now.holds u b → copies u b' → ∃ b'', copies' u b'') :
    Tracks now past copies' last where
  genuine u b copied := by
    rcases genuine u b copied with before | held
    · exact tracks.genuine u b before
    · exact Or.inl held
  covers u b held le := by
    obtain ⟨b', before⟩ := tracks.covers u b held le
    exact keeps u b b' held before
  reached := tracks.reached

/-- When everything has been copied, the mirror has reached any item of the source. -/
theorem complete (tracks : Tracks now past copies last)
    (all : ∀ u b, now.holds u b → ∃ b', copies u b') {last' : Int}
    (item : last' ≤ 0 ∨ last' = last ∨ ∃ b, now.holds last' b) : Tracks now past copies last' where
  genuine := tracks.genuine
  covers u b held _ := all u b held
  reached := by
    rcases item with zero | rfl | held
    · exact Or.inl zero
    · exact tracks.reached
    · exact Or.inr (Or.inl held)

theorem exact (tracks : Tracks now past copies last) (succeeds : Succeeds past now)
    (distinct : ∀ u b b', now.holds u b → now.holds u b' → b = b') {u : Int} {b b' : B}
    (copied : copies u b) (held : now.holds u b') : b = b' := by
  rcases tracks.genuine u b copied with here | ⟨p, member, epoch, before⟩
  · exact distinct u b b' here held
  · exact succeeds.immutable p member epoch u b b' before held

end Tracks
end Snapshot
end ImapCache.Lib
