import ImapCache.Model.Throttle

/-!
# The two login throttles

In memory a count of failures stands until a success or a lockout. In Redis it expires a lockout
after the first failure. The answers agree as long as no failure is recorded after that.
-/

namespace ImapCache.Auth
open Lib

/-! ## The state of a user name in memory -/

def lapse (now : Time) (state : AttemptState) : AttemptState :=
  if state.blockedUntil.all (now < ·) then state else ⟨0, none⟩

def Attempts.current (attempts : Attempts) (now : Time) (username : String) : AttemptState :=
  lapse now ((attempts (toAsciiLowercase username)).getD ⟨0, none⟩)

theorem lapse_none (now : Time) (failures : Nat) : lapse now ⟨failures, none⟩ = ⟨failures, none⟩ := rfl

theorem lapse_some (now : Time) (failures : Nat) (stop : Time) :
    lapse now ⟨failures, some stop⟩ = if now < stop then ⟨failures, some stop⟩ else ⟨0, none⟩ := by
  simp only [lapse, Option.all_some, decide_eq_true_eq]

theorem lapse_lapse {now later : Time} (le : now ≤ later) (state : AttemptState) :
    lapse later (lapse now state) = lapse later state := by
  obtain ⟨failures, blockedUntil⟩ := state
  cases blockedUntil with
  | none => rfl
  | some stop =>
      by_cases locked : now < stop
      · rw [lapse_some, if_pos locked]
      · have expired : ¬ later < stop := fun still => locked (lt_of_le_of_lt le still)
        rw [lapse_some, if_neg locked, lapse_none, lapse_some, if_neg expired]

theorem current_later (attempts : Attempts) {now later : Time} (le : now ≤ later) (username : String) :
    attempts.current later username = lapse later (attempts.current now username) :=
  (lapse_lapse le _).symm

theorem isBlocked_answer (attempts : Attempts) (now : Time) (username : String) :
    (attempts.isBlocked now username).1 = (attempts.current now username).blockedUntil.isSome := by
  cases stored : attempts (toAsciiLowercase username) with
  | none => simp only [Attempts.isBlocked, Attempts.current, stored, Option.getD_none, lapse_none,
      Option.isSome_none]
  | some state =>
      obtain ⟨failures, blockedUntil⟩ := state
      simp only [Attempts.isBlocked, Attempts.current, stored, Option.getD_some]
      cases blockedUntil with
      | none => rfl
      | some stop =>
          rw [lapse_some]
          by_cases locked : now < stop
          · simp only [gt_iff_lt, locked, if_true, Option.isSome_some]
          · simp only [gt_iff_lt, locked, if_false, Option.isSome_none]

theorem current_isBlocked (attempts : Attempts) (now : Time) (username : String) :
    (attempts.isBlocked now username).2.current now username = attempts.current now username := by
  cases stored : attempts (toAsciiLowercase username) with
  | none => simp only [Attempts.isBlocked, stored]
  | some state =>
      obtain ⟨failures, blockedUntil⟩ := state
      cases blockedUntil with
      | none => simp only [Attempts.isBlocked, stored]
      | some stop =>
          by_cases locked : now < stop
          · simp only [Attempts.isBlocked, stored, gt_iff_lt, locked, if_true]
          · simp only [Attempts.isBlocked, stored, gt_iff_lt, locked, if_false, Attempts.current,
              Function.update_self, Option.getD_some, lapse_none, lapse_some]

theorem current_recordFailure (limits : LoginLimits) (attempts : Attempts) (now : Time) (username : String) :
    (attempts.recordFailure limits now username).current now username =
      if (attempts.current now username).blockedUntil.isSome then attempts.current now username
      else lapse now (countFailure limits now (attempts.current now username).failures) := by
  cases stored : (attempts (toAsciiLowercase username)).getD ⟨0, none⟩ with
  | mk failures blockedUntil =>
      simp only [Attempts.recordFailure, Attempts.current, stored]
      cases blockedUntil with
      | none => simp [lapse_none]
      | some stop =>
          by_cases locked : now < stop
          · simp [locked, lapse_some]
          · simp [locked, lapse_some]

theorem current_recordSuccess (attempts : Attempts) (now : Time) (username : String) :
    (attempts.recordSuccess username).current now username = ⟨0, none⟩ := by
  simp [Attempts.recordSuccess, Attempts.current, lapse_none]

/-! ## The keys in Redis -/

theorem append_ne_append {n : Nat} {a b : String} (differ : a.toList[n]? ≠ b.toList[n]?)
    (inA : n < a.toList.length) (inB : n < b.toList.length) (x y : String) : a ++ x ≠ b ++ y := by
  intro same
  have letter := congrArg (fun text => text.toList[n]?) same
  simp only [String.toList_append] at letter
  rw [List.getElem?_append_left inA, List.getElem?_append_left inB] at letter
  exact differ letter

theorem blockedKey_ne_failuresKey (username other : String) : blockedKey username ≠ failuresKey other :=
  append_ne_append (n := 20) (by decide +kernel) (by decide +kernel) (by decide +kernel) username other

theorem counting_first (keys : Counters) (now : Time) (key : String) {seconds : Int} (positive : 0 < seconds)
    (absent : keys key = none) :
    keys.incr now key = (1, keys.set key 1 none) ∧
      Counters.expire (keys.set key 1 none) now key seconds =
        keys.set key 1 (some (now + seconds.toNat * 1000000000)) := by
  constructor
  · simp only [Counters.incr, absent, Option.filter_none]
  · have live : ((keys.set key 1 none) key).filter (Timed.live now) = some ⟨1, none⟩ := by
      simp only [Expiring.set, Function.update_self]
      rfl
    simp only [Counters.expire, live, if_neg (not_le.mpr positive)]
    simp only [Expiring.set, Function.update_idem]

theorem counting_next (keys : Counters) (now : Time) (key : String) {failures : Int} {stop : Time}
    (live : now < stop) (stored : keys key = some ⟨failures, some stop⟩) :
    keys.incr now key = (failures + 1, keys.set key (failures + 1) (some stop)) := by
  have entry : (keys key).filter (Timed.live now) = some ⟨failures, some stop⟩ := by
    rw [stored, Option.filter_some]
    simp [Timed.live, live]
  simp only [Counters.incr, entry]

/-! ## Agreement of the states -/

section
variable (limits : LoginLimits) (username : String)

/-- The state in memory and the keys in Redis, where `first` is the time of the first failure of a
count. The counter in Redis may have expired. -/
inductive Agrees (attempts : Attempts) (keys : Counters) (first now : Time) : Prop where
  | idle (state : attempts.current now username = ⟨0, none⟩)
      (unblocked : keys.get now (blockedKey (toAsciiLowercase username)) = none)
      (uncounted : keys (failuresKey (toAsciiLowercase username)) = none)
  | counting {failures : Nat} (state : attempts.current now username = ⟨failures + 1, none⟩)
      (below : failures + 1 < limits.maxFailures.toNat)
      (unblocked : keys.get now (blockedKey (toAsciiLowercase username)) = none)
      (counted : keys (failuresKey (toAsciiLowercase username)) =
        some ⟨(failures : Int) + 1, some (first + limits.lockout)⟩)
  | locked {stop : Time} (state : attempts.current now username = ⟨0, some stop⟩)
      (blocked : keys (blockedKey (toAsciiLowercase username)) = some ⟨1, some stop⟩)
      (uncounted : keys (failuresKey (toAsciiLowercase username)) = none)

/-- The counted failures that a call at `now` finds. -/
def Attempts.counted (attempts : Attempts) (now : Time) : Nat := (attempts.current now username).failures

/-- The time of the first failure of a count, after a call. -/
def firstFailure (attempts : Attempts) (first now : Time) : ThrottleCall → Time
  | .recordFailure => if attempts.counted username now = 0 then now else first
  | _ => first

/-- Every failure recorded on top of others comes less than a lockout after the first of them. -/
def Timely : Attempts → Time → Time → List (Time × ThrottleCall) → Prop
  | _, _, _, [] => True
  | attempts, first, now, (delay, call) :: calls =>
      (call = .recordFailure → attempts.counted username (now + delay) = 0 ∨
        now + delay < first + limits.lockout) ∧
      Timely ((memoryLoginThrottle limits).perform username attempts (now + delay) call).2
        (firstFailure username attempts first (now + delay) call) (now + delay) calls

variable {limits username}

theorem Agrees.later {attempts : Attempts} {keys : Counters} {first now later : Time} (le : now ≤ later)
    (agrees : Agrees limits username attempts keys first now) :
    Agrees limits username attempts keys first later := by
  cases agrees with
  | idle state unblocked uncounted =>
      refine .idle ?_ (Expiring.get_none_later keys now le unblocked) uncounted
      rw [current_later attempts le, state, lapse_none]
  | counting state below unblocked counted =>
      refine .counting ?_ below (Expiring.get_none_later keys now le unblocked) counted
      rw [current_later attempts le, state, lapse_none]
  | @locked stop state blocked uncounted =>
      have now' : attempts.current later username = if later < stop then ⟨0, some stop⟩ else ⟨0, none⟩ := by
        rw [current_later attempts le, state, lapse_some]
      by_cases still : later < stop
      · exact .locked (by rw [now', if_pos still]) blocked uncounted
      · refine .idle (by rw [now', if_neg still]) ?_ uncounted
        rw [Expiring.get_of_entry keys later blocked]
        simp [Timed.live, still]

theorem current_locked {attempts : Attempts} {now stop : Time} {failures : Nat}
    (state : attempts.current now username = ⟨failures, some stop⟩) : now < stop := by
  have twice := lapse_lapse (le_refl now) ((attempts (toAsciiLowercase username)).getD ⟨0, none⟩)
  change lapse now (attempts.current now username) = attempts.current now username at twice
  rw [state, lapse_some] at twice
  by_contra expired
  rw [if_neg expired] at twice
  cases twice

theorem Agrees.answer {attempts : Attempts} {keys : Counters} {first now : Time}
    (agrees : Agrees limits username attempts keys first now) :
    (attempts.isBlocked now username).1 =
      (keys.get now (blockedKey (toAsciiLowercase username))).isSome := by
  rw [isBlocked_answer]
  cases agrees with
  | idle state unblocked uncounted => rw [state, unblocked]; rfl
  | counting state below unblocked counted => rw [state, unblocked]; rfl
  | locked state blocked uncounted =>
      rw [state, Expiring.get_of_entry keys now blocked]
      simp [Timed.live, current_locked state]

theorem Agrees.success {attempts : Attempts} {keys : Counters} {first now : Time} :
    Agrees limits username (attempts.recordSuccess username) (keys.recordSuccess username) first now := by
  have apart := blockedKey_ne_failuresKey (toAsciiLowercase username) (toAsciiLowercase username)
  refine .idle (current_recordSuccess attempts now username) ?_ ?_
  · rw [Counters.recordSuccess, Expiring.get_del_ne _ now apart, Expiring.get_del_self]
  · simp only [Counters.recordSuccess, Expiring.del, Function.update_self]

/-! ## A counted failure -/

def WholeSeconds (limits : LoginLimits) : Prop :=
  ∃ seconds : Nat, 1 ≤ seconds ∧ (seconds : Int) ≤ i64Max ∧ limits.lockout = seconds * 1000000000

theorem WholeSeconds.positive (whole : WholeSeconds limits) : 0 < limits.lockout := by
  obtain ⟨seconds, one, -, eq⟩ := whole
  rw [eq]
  exact Nat.mul_pos one (by decide)

theorem WholeSeconds.lockoutSeconds (whole : WholeSeconds limits) :
    0 < lockoutSeconds limits ∧ (lockoutSeconds limits).toNat * 1000000000 = limits.lockout := by
  obtain ⟨seconds, one, fits, eq⟩ := whole
  have exact : limits.lockout / 1000000000 = seconds := by
    rw [eq]
    exact Nat.mul_div_cancel _ (by decide)
  have same : Auth.lockoutSeconds limits = seconds := by
    unfold Auth.lockoutSeconds
    rw [exact, max_eq_left one]
    unfold u64AsI64
    have small : seconds % 18446744073709551616 = seconds := Nat.mod_eq_of_lt (by unfold i64Max at fits; omega)
    rw [small, if_pos fits]
  rw [same, eq]
  exact ⟨by exact_mod_cast one, rfl⟩

theorem countFailure_eq (limits : LoginLimits) (now : Time) {failures : Nat}
    (below : failures = 0 ∨ failures < limits.maxFailures.toNat) :
    countFailure limits now failures =
      if failures + 1 ≥ limits.maxFailures.toNat then ⟨0, some (now + limits.lockout)⟩
      else ⟨failures + 1, none⟩ := by
  have bound := limits.maxFailures.toNat_lt
  have small : min (failures + 1) 4294967295 = failures + 1 := by
    rcases below with rfl | below
    · rfl
    · omega
  simp only [countFailure, small]

/-- The counter before a failure that Redis counts: absent, or alive with the failures so far. -/
def Open (limits : LoginLimits) (keys : Counters) (key : String) (failures : Nat) (first now : Time) : Prop :=
  (failures = 0 ∧ first = now ∧ keys key = none) ∨
    (failures ≠ 0 ∧ now < first + limits.lockout ∧
      keys key = some ⟨(failures : Int), some (first + limits.lockout)⟩)

theorem incr_open (whole : WholeSeconds limits) {keys : Counters} {key : String} {failures : Nat}
    {first now : Time} (opened : Open limits keys key failures first now) :
    (keys.incr now key).1 = failures + 1 ∧
      (if (keys.incr now key).1 = 1 then
          Counters.expire (keys.incr now key).2 now key (lockoutSeconds limits)
        else (keys.incr now key).2) =
      keys.set key (failures + 1) (some (first + limits.lockout)) := by
  rcases opened with ⟨rfl, rfl, absent⟩ | ⟨some, live, stored⟩
  · obtain ⟨incremented, expires⟩ := counting_first keys first key whole.lockoutSeconds.1 absent
    rw [incremented, if_pos rfl, expires, whole.lockoutSeconds.2]
    exact ⟨rfl, rfl⟩
  · rw [counting_next keys now key live stored]
    refine ⟨rfl, if_neg ?_⟩
    change ¬((failures : Int) + 1 = 1)
    omega

theorem recordFailure_open (whole : WholeSeconds limits) {keys : Counters} {failures : Nat}
    {first now : Time} (unblocked : keys.get now (blockedKey (toAsciiLowercase username)) = none)
    (opened : Open limits keys (failuresKey (toAsciiLowercase username)) failures first now) :
    (keys.recordFailure limits now username).2 =
      let counted := keys.set (failuresKey (toAsciiLowercase username)) (failures + 1)
        (some (first + limits.lockout))
      if failures + 1 ≥ limits.maxFailures.toNat then
        (counted.set (blockedKey (toAsciiLowercase username)) 1 (some (now + limits.lockout))).del
          (failuresKey (toAsciiLowercase username))
      else counted := by
  obtain ⟨value, counted⟩ := incr_open whole opened
  obtain ⟨positive, seconds⟩ := whole.lockoutSeconds
  simp only [Counters.recordFailure, unblocked, Option.isSome_none, Bool.false_eq_true, if_false, counted]
  rw [value]
  by_cases reached : failures + 1 ≥ limits.maxFailures.toNat
  · have reached' : (failures : Int) + 1 ≥ limits.maxFailures.toNat := by exact_mod_cast reached
    rw [if_pos reached', if_pos reached]
    simp only [Counters.setEx, if_neg (not_le.mpr positive), seconds]
  · have reached' : ¬ (failures : Int) + 1 ≥ limits.maxFailures.toNat := by exact_mod_cast reached
    rw [if_neg reached', if_neg reached]

theorem Agrees.counted (whole : WholeSeconds limits) {attempts : Attempts} {keys : Counters} {failures : Nat}
    {first now : Time} (state : attempts.current now username = ⟨failures, none⟩)
    (below : failures = 0 ∨ failures < limits.maxFailures.toNat)
    (unblocked : keys.get now (blockedKey (toAsciiLowercase username)) = none)
    (opened : Open limits keys (failuresKey (toAsciiLowercase username)) failures first now) :
    Agrees limits username (attempts.recordFailure limits now username)
      (keys.recordFailure limits now username).2 first now := by
  have apart := blockedKey_ne_failuresKey (toAsciiLowercase username) (toAsciiLowercase username)
  have memory : (attempts.recordFailure limits now username).current now username =
      lapse now (countFailure limits now failures) := by
    rw [current_recordFailure, state]
    rfl
  rw [countFailure_eq limits now below] at memory
  rw [recordFailure_open whole unblocked opened]
  by_cases reached : failures + 1 ≥ limits.maxFailures.toNat
  · rw [if_pos reached, lapse_some, if_pos (Nat.lt_add_of_pos_right whole.positive)] at memory
    simp only [if_pos reached]
    refine .locked memory ?_ ?_
    · simp only [Expiring.del, Expiring.set, Function.update_of_ne apart, Function.update_self]
    · simp only [Expiring.del, Function.update_self]
  · rw [if_neg reached, lapse_none] at memory
    simp only [if_neg reached]
    refine .counting memory (not_le.mp reached) ?_ ?_
    · rw [Expiring.get_set_ne _ now _ _ apart]
      exact unblocked
    · simp only [Expiring.set, Function.update_self]

theorem Agrees.failure (whole : WholeSeconds limits) {attempts : Attempts} {keys : Counters} {first now : Time}
    (agrees : Agrees limits username attempts keys first now)
    (timely : attempts.counted username now = 0 ∨ now < first + limits.lockout) :
    Agrees limits username (attempts.recordFailure limits now username)
      (keys.recordFailure limits now username).2
      (firstFailure username attempts first now .recordFailure) now := by
  cases agrees with
  | idle state unblocked uncounted =>
      have started : firstFailure username attempts first now .recordFailure = now := by
        simp only [firstFailure, Attempts.counted, state, if_true]
      rw [started]
      exact .counted whole state (.inl rfl) unblocked (.inl ⟨rfl, rfl, uncounted⟩)
  | @counting failures state below unblocked counted =>
      have count : attempts.counted username now = failures + 1 := by rw [Attempts.counted, state]
      have kept : firstFailure username attempts first now .recordFailure = first := by
        simp only [firstFailure, count, Nat.succ_ne_zero, if_false]
      rw [kept]
      have live : now < first + limits.lockout := by
        rcases timely with zero | live
        · rw [count] at zero
          cases zero
        · exact live
      refine .counted whole state (.inr below) unblocked (.inr ⟨Nat.succ_ne_zero failures, live, ?_⟩)
      rw [counted]
      norm_cast
  | locked state blocked uncounted =>
      have still : keys.get now (blockedKey (toAsciiLowercase username)) = some 1 := by
        rw [Expiring.get_of_entry keys now blocked]
        simp [Timed.live, current_locked state]
      have redis : (keys.recordFailure limits now username).2 = keys := by
        simp only [Counters.recordFailure, still, Option.isSome_some, if_true]
      rw [redis]
      refine .locked ?_ blocked uncounted
      rw [current_recordFailure, state]
      rfl

/-! ## Sequences of calls -/

theorem Agrees.perform (whole : WholeSeconds limits) {attempts : Attempts} {keys : Counters} {first now : Time}
    (agrees : Agrees limits username attempts keys first now) (call : ThrottleCall)
    (timely : call = .recordFailure → attempts.counted username now = 0 ∨ now < first + limits.lockout) :
    ((memoryLoginThrottle limits).perform username attempts now call).1 =
        ((redisLoginThrottle limits).perform username keys now call).1 ∧
      Agrees limits username ((memoryLoginThrottle limits).perform username attempts now call).2
        ((redisLoginThrottle limits).perform username keys now call).2
        (firstFailure username attempts first now call) now := by
  cases call with
  | isBlocked =>
      refine ⟨congrArg some agrees.answer, ?_⟩
      change Agrees limits username (attempts.isBlocked now username).2 keys first now
      have same := current_isBlocked attempts now username
      cases agrees with
      | idle state unblocked uncounted => exact .idle (same.trans state) unblocked uncounted
      | counting state below unblocked counted => exact .counting (same.trans state) below unblocked counted
      | locked state blocked uncounted => exact .locked (same.trans state) blocked uncounted
  | recordFailure => exact ⟨rfl, agrees.failure whole (timely rfl)⟩
  | recordSuccess => exact ⟨rfl, .success⟩

theorem answers_agree (whole : WholeSeconds limits) (calls : List (Time × ThrottleCall))
    {attempts : Attempts} {keys : Counters} {first now : Time}
    (agrees : Agrees limits username attempts keys first now)
    (timely : Timely limits username attempts first now calls) :
    (memoryLoginThrottle limits).answers username attempts now calls =
      (redisLoginThrottle limits).answers username keys now calls := by
  induction calls generalizing attempts keys first now with
  | nil => rfl
  | cons entry calls ih =>
      obtain ⟨delay, call⟩ := entry
      obtain ⟨inTime, rest⟩ := timely
      have waited := agrees.later (Nat.le_add_right now delay)
      obtain ⟨answer, after⟩ := waited.perform whole call inTime
      simp only [LoginThrottle.answers]
      rw [answer, ih after rest]

end

/-- Both throttles answer alike as long as every failure recorded on top of others comes within a
lockout of the first of them. -/
theorem throttles_agree (limits : LoginLimits) (username : String) (calls : List (Time × ThrottleCall))
    (whole : WholeSeconds limits)
    (timely : Timely limits username (memoryLoginThrottle limits).empty 0 0 calls) :
    (memoryLoginThrottle limits).answers username (memoryLoginThrottle limits).empty 0 calls =
      (redisLoginThrottle limits).answers username (redisLoginThrottle limits).empty 0 calls :=
  answers_agree whole calls (.idle rfl rfl rfl) timely

/-- Two failures, and the question whether the user name is blocked. -/
def twoFailures (delay : Time) : List (Time × ThrottleCall) :=
  [(0, .recordFailure), (delay, .recordFailure), (0, .isBlocked)]

theorem throttles_agree_within_a_minute :
    (memoryLoginThrottle ⟨2, 60000000000⟩).answers "ann" (fun _ => none) 0 (twoFailures 59000000000) =
      (redisLoginThrottle ⟨2, 60000000000⟩).answers "ann" (fun _ => none) 0 (twoFailures 59000000000) := by
  refine throttles_agree _ _ _ ⟨60, by decide, by decide, rfl⟩ ?_
  simp only [twoFailures, Timely]
  decide +kernel

/-- A second failure 61 seconds after the first locks the user name out in memory only. -/
theorem throttles_differ_after_a_minute :
    (memoryLoginThrottle ⟨2, 60000000000⟩).answers "ann" (fun _ => none) 0 (twoFailures 61000000000) ≠
      (redisLoginThrottle ⟨2, 60000000000⟩).answers "ann" (fun _ => none) 0 (twoFailures 61000000000) := by
  decide +kernel

end ImapCache.Auth
