import ImapCache.Model.Logins
import ImapCache.Model.Sample
import ImapCache.Proof.ThrottleBackends

/-!
# Wrong passwords between two lockouts

Every call that has passed the check of the throttle can still try a wrong password, however many
failures are recorded meanwhile. So the bound holds as long as the throttle never lets a call through
when the failures counted and the calls let through before already reach the limit.
-/

namespace ImapCache.Auth
open Lib

/-! ## What is counted -/

def Login.names (name : String) (login : Login) : Bool :=
  toAsciiLowercase login.username == toAsciiLowercase name

/-- Past the check of the throttle, and able to record a failure. -/
def Phase.open : Phase → Bool
  | findUser | verify _ | recordFailure => true
  | _ => false

def Logins.count (logins : Logins) (name : String) (among : Phase → Bool) : Nat :=
  logins.calls.countP fun login => login.names name && among login.phase

def Logins.failures (logins : Logins) (name : String) : Nat :=
  (logins.attempts.current logins.now name).failures

def Logins.lockedOut (logins : Logins) (name : String) : Bool :=
  (logins.attempts.current logins.now name).blockedUntil.isSome

section
variable (lib : Libraries) (limits : LoginLimits) (authenticator : Authenticator) (name : String)

/-- The turn checks a wrong password of the user name against the stored hash. -/
def Logins.checksWrong (logins : Logins) : Turn → Bool
  | .advance index _ =>
      match logins.calls[index]? with
      | some ⟨username, password, .verify passwordHash⟩ =>
          Login.names name ⟨username, password, .verify passwordHash⟩ &&
            match lib.verifyPassword passwordHash password with
            | .ok false => true
            | _ => false
      | _ => false
  | _ => false

/-- The turn ends a counting period: with a success or, even one of no length, with a lockout. -/
def Logins.endsPeriod (logins : Logins) (turn : Turn) : Bool :=
  match turn with
  | .advance index _ =>
      match logins.calls[index]? with
      | some login => login.names name && (login.phase == .recordSuccess ||
          login.phase == .recordFailure &&
            ((logins.step lib limits authenticator turn).attempts (toAsciiLowercase name)).any
              (·.blockedUntil.isSome))
      | none => false
  | _ => false

/-- The state with the number of wrong passwords that were checked in the counting period. There is
none while the user name is locked out. -/
def watch (state : Logins × Nat) (turn : Turn) : Logins × Nat :=
  let after := state.1.step lib limits authenticator turn
  (after,
    if state.1.lockedOut name || after.lockedOut name ||
      state.1.endsPeriod lib limits authenticator name turn then 0
    else if state.1.checksWrong lib name turn then state.2 + 1
    else state.2)

/-- A call that the turn lets through the throttle finds room under the limit for itself, the failures
that are counted and the calls let through before it. -/
def Logins.admits (logins : Logins) : Turn → Prop
  | .advance index _ => ∀ login ∈ logins.calls[index]?, login.names name →
      login.phase = .check → logins.lockedOut name = false →
      logins.failures name + logins.count name Phase.open < limits.maxFailures.toNat
  | _ => True

instance Logins.admits.decidable (logins : Logins) : (turn : Turn) → Decidable (logins.admits limits name turn)
  | .advance index _ => inferInstanceAs (Decidable (∀ login ∈ logins.calls[index]?, login.names name →
      login.phase = .check → logins.lockedOut name = false →
      logins.failures name + logins.count name Phase.open < limits.maxFailures.toNat))
  | .call _ _ | .elapse _ => inferInstanceAs (Decidable True)

def Admitting : Logins × Nat → List Turn → Prop
  | _, [] => True
  | state, turn :: turns => state.1.admits limits name turn ∧
      Admitting (watch lib limits authenticator name state turn) turns

instance Admitting.decidable : (state : Logins × Nat) → (turns : List Turn) →
    Decidable (Admitting lib limits authenticator name state turns)
  | _, [] => inferInstanceAs (Decidable True)
  | state, turn :: turns =>
      have := Admitting.decidable (watch lib limits authenticator name state turn) turns
      inferInstanceAs (Decidable (_ ∧ _))

end

/-! ## Frames -/

variable {lib : Libraries} {limits : LoginLimits} {authenticator : Authenticator} {name : String}

theorem current_congr (attempts : Attempts) (now : Time) {a b : String}
    (same : toAsciiLowercase a = toAsciiLowercase b) : attempts.current now a = attempts.current now b := by
  rw [Attempts.current, Attempts.current, same]

theorem current_update_ne (attempts : Attempts) (now : Time) {key : String} (state : Option AttemptState)
    (ne : toAsciiLowercase name ≠ key) :
    Attempts.current (Function.update attempts key state) now name = attempts.current now name := by
  rw [Attempts.current, Attempts.current, Function.update_of_ne ne]

theorem current_next_ne (login : Login) (attempts : Attempts) (now : Time)
    (found : Except Error (Option (Row User))) (ne : toAsciiLowercase name ≠ toAsciiLowercase login.username) :
    (login.next lib limits authenticator attempts now found).1.current now name =
      attempts.current now name := by
  obtain ⟨username, password, phase⟩ := login
  cases phase with
  | check =>
      by_cases deny : authenticator = .denyAll
      · simp only [Login.next, deny, if_true]
      · simp only [Login.next, deny, if_false, Attempts.isBlocked]
        split
        · rfl
        · split
          · rfl
          · split
            · rfl
            · exact current_update_ne attempts now _ ne
  | findUser =>
      rcases found with failure | (_ | user)
      · rfl
      · rfl
      · rfl
  | verify passwordHash =>
      simp only [Login.next]
      split <;> rfl
  | recordFailure =>
      simp only [Login.next, Attempts.recordFailure]
      split
      · exact current_update_ne attempts now _ ne
      · split
        · exact current_update_ne attempts now _ ne
        · exact current_update_ne attempts now _ ne
  | recordSuccess => exact current_update_ne attempts now _ ne
  | finished => rfl

/-! ## One turn -/

theorem countP_set_add {α : Type} {items : List α} {index : Nat} {old : α} (p : α → Bool)
    (here : items[index]? = some old) (new : α) :
    (items.set index new).countP p + (if p old then 1 else 0) =
      items.countP p + (if p new then 1 else 0) := by
  obtain ⟨bound, rfl⟩ := List.getElem?_eq_some_iff.mp here
  rw [List.countP_set bound]
  have positive : p items[index] = true → 0 < items.countP p := fun holds =>
    List.countP_pos_iff.mpr ⟨_, List.getElem_mem bound, holds⟩
  split
  · have := positive ‹_›
    omega
  · omega

/-- The wrong passwords of the period are recorded or about to be, and what is recorded and what may
still be recorded is within the limit. -/
structure Throttled (limits : LoginLimits) (name : String) (state : Logins × Nat) : Prop where
  counted : state.2 ≤ state.1.failures name + state.1.count name (· == .recordFailure)
  room : state.1.failures name + state.1.count name Phase.open ≤ limits.maxFailures.toNat

theorem count_recordFailure_le (logins : Logins) (name : String) :
    logins.count name (· == .recordFailure) ≤ logins.count name Phase.open := by
  refine List.countP_mono_left fun login _ recording => ?_
  simp only [Bool.and_eq_true, beq_iff_eq] at recording ⊢
  exact ⟨recording.1, by rw [recording.2]; rfl⟩

theorem Throttled.bounded {state : Logins × Nat} (throttled : Throttled limits name state) :
    state.2 ≤ limits.maxFailures.toNat :=
  throttled.counted.trans ((Nat.add_le_add_left (count_recordFailure_le state.1 name) _).trans throttled.room)

/-- Outside of a period nothing is counted; in one, a turn adds at most a wrong password. -/
theorem Throttled.of_period {state : Logins × Nat} {turn : Turn}
    (room : (state.1.step lib limits authenticator turn).failures name +
      (state.1.step lib limits authenticator turn).count name Phase.open ≤ limits.maxFailures.toNat)
    (counted : state.1.lockedOut name = false →
      (state.1.step lib limits authenticator turn).lockedOut name = false →
      state.1.endsPeriod lib limits authenticator name turn = false →
      (if state.1.checksWrong lib name turn then state.2 + 1 else state.2) ≤
        (state.1.step lib limits authenticator turn).failures name +
        (state.1.step lib limits authenticator turn).count name (· == .recordFailure)) :
    Throttled limits name (watch lib limits authenticator name state turn) := by
  refine ⟨?_, room⟩
  simp only [watch]
  split
  · exact Nat.zero_le _
  · rename_i inPeriod
    simp only [Bool.or_eq_true, not_or, Bool.not_eq_true] at inPeriod
    exact counted inPeriod.1.1 inPeriod.1.2 inPeriod.2

theorem throttled_call {state : Logins × Nat} (throttled : Throttled limits name state)
    (username password : String) :
    Throttled limits name (watch lib limits authenticator name state (.call username password)) := by
  have same (among : Phase → Bool) (closed : among .check = false) :
      (state.1.step lib limits authenticator (.call username password)).count name among =
        state.1.count name among := by
    simp [Logins.step, Logins.count, closed]
  refine .of_period ?_ fun _ _ _ => ?_
  · rw [same _ rfl]
    exact throttled.room
  · rw [same _ rfl]
    exact throttled.counted

theorem lapse_failures_le (now : Time) (state : AttemptState) : (lapse now state).failures ≤ state.failures := by
  unfold lapse
  split
  · exact le_refl _
  · exact Nat.zero_le _

theorem lapse_unlocked (now : Time) {state : AttemptState} (unlocked : state.blockedUntil = none) :
    lapse now state = state := by
  rw [lapse, unlocked, Option.all_none, if_pos rfl]

theorem throttled_elapse {state : Logins × Nat} (throttled : Throttled limits name state) (duration : Time) :
    Throttled limits name (watch lib limits authenticator name state (.elapse duration)) := by
  have later := current_later state.1.attempts (Nat.le_add_right state.1.now duration) name
  refine .of_period ?_ fun unlocked _ _ => ?_
  · have fewer := lapse_failures_le (state.1.now + duration) (state.1.attempts.current state.1.now name)
    rw [← later] at fewer
    exact (Nat.add_le_add_right fewer _).trans throttled.room
  · have same : state.1.attempts.current (state.1.now + duration) name =
        state.1.attempts.current state.1.now name := by
      rw [later, lapse_unlocked _ (by simpa [Logins.lockedOut] using unlocked)]
    have counted := throttled.counted
    rw [Logins.failures, ← same] at counted
    exact counted

section
variable {logins : Logins} {index : Nat} {login : Login}

theorem step_advance (here : logins.calls[index]? = some login) (found : Except Error (Option (Row User))) :
    logins.step lib limits authenticator (.advance index found) =
      { logins with
        attempts := (login.next lib limits authenticator logins.attempts logins.now found).1
        calls := logins.calls.set index { login with
          phase := (login.next lib limits authenticator logins.attempts logins.now found).2 } } := by
  simp only [Logins.step, here]

theorem count_advance (lib : Libraries) (limits : LoginLimits) (authenticator : Authenticator)
    (name : String) (here : logins.calls[index]? = some login) (found : Except Error (Option (Row User))) (among : Phase → Bool) :
    (logins.step lib limits authenticator (.advance index found)).count name among +
        (if login.names name && among login.phase then 1 else 0) =
      logins.count name among + (if login.names name &&
        among (login.next lib limits authenticator logins.attempts logins.now found).2 then 1 else 0) := by
  rw [step_advance here]
  exact countP_set_add _ here _

theorem throttled_other {state : Logins × Nat} (throttled : Throttled limits name state)
    (here : state.1.calls[index]? = some login) (found : Except Error (Option (Row User)))
    (other : login.names name = false) :
    Throttled limits name (watch lib limits authenticator name state (.advance index found)) := by
  have ne : toAsciiLowercase name ≠ toAsciiLowercase login.username := by
    simp only [Login.names, beq_eq_false_iff_ne, ne_eq] at other
    exact fun eq => other eq.symm
  have failures : (state.1.step lib limits authenticator (.advance index found)).failures name =
      state.1.failures name := by
    rw [step_advance here]
    exact congrArg AttemptState.failures (current_next_ne login state.1.attempts state.1.now found ne)
  have counts (among : Phase → Bool) :
      (state.1.step lib limits authenticator (.advance index found)).count name among =
        state.1.count name among := by
    simpa [other] using count_advance lib limits authenticator name here found among
  refine .of_period ?_ fun _ _ _ => ?_
  · rw [failures, counts]
    exact throttled.room
  · have right : state.1.checksWrong lib name (.advance index found) = false := by
      simp only [Logins.checksWrong, here]
      split
      · rename_i same
        cases Option.some.inj same
        simp [other]
      · rfl
    rw [failures, counts, right]
    exact throttled.counted

theorem failures_next (login : Login) (attempts : Attempts) (now : Time)
    (found : Except Error (Option (Row User))) (failure : login.phase ≠ .recordFailure)
    (success : login.phase ≠ .recordSuccess) :
    (login.next lib limits authenticator attempts now found).1.current now login.username =
      attempts.current now login.username := by
  obtain ⟨username, password, phase⟩ := login
  cases phase with
  | check =>
      by_cases deny : authenticator = .denyAll
      · simp only [Login.next, deny, if_true]
      · simp only [Login.next, deny, if_false]
        exact current_isBlocked attempts now username
  | findUser =>
      rcases found with failure | (_ | user)
      · rfl
      · rfl
      · rfl
  | verify passwordHash =>
      simp only [Login.next]
      split <;> rfl
  | recordFailure => exact absurd rfl failure
  | recordSuccess => exact absurd rfl success
  | finished => rfl

theorem next_open (login : Login) (attempts : Attempts) (now : Time)
    (found : Except Error (Option (Row User)))
    (opens : (login.next lib limits authenticator attempts now found).2.open = true) :
    login.phase.open = true ∧ login.phase ≠ .recordFailure ∨
      login.phase = .check ∧ (attempts.current now login.username).blockedUntil = none := by
  obtain ⟨username, password, phase⟩ := login
  cases phase with
  | check =>
      refine .inr ⟨rfl, ?_⟩
      by_cases deny : authenticator = .denyAll
      · simp [Login.next, deny, Phase.open] at opens
      · have answer := isBlocked_answer attempts now username
        by_contra locked
        have blocked : (attempts.isBlocked now username).1 = true := by
          rw [answer]
          exact Option.isSome_iff_ne_none.mpr locked
        simp [Login.next, deny, blocked, Phase.open] at opens
  | findUser => exact .inl ⟨rfl, nofun⟩
  | verify passwordHash => exact .inl ⟨rfl, nofun⟩
  | recordFailure => cases opens
  | recordSuccess => cases opens
  | finished => cases opens

theorem next_checksWrong (here : logins.calls[index]? = some login) {found : Except Error (Option (Row User))}
    (wrong : logins.checksWrong lib name (.advance index found) = true) :
    (login.next lib limits authenticator logins.attempts logins.now found).2 = .recordFailure := by
  obtain ⟨username, password, phase⟩ := login
  simp only [Logins.checksWrong, here] at wrong
  cases phase with
  | verify passwordHash =>
      simp only [Bool.and_eq_true] at wrong
      have outcome := wrong.2
      simp only [Login.next]
      split at outcome
      · rename_i differs
        rw [differs]
      · cases outcome
  | check => cases wrong
  | findUser => cases wrong
  | recordFailure => cases wrong
  | recordSuccess => cases wrong
  | finished => cases wrong

variable {state : Logins × Nat}

theorem throttled_before (throttled : Throttled limits name state)
    (here : state.1.calls[index]? = some login) (found : Except Error (Option (Row User)))
    (own : login.names name = true) (admits : state.1.admits limits name (.advance index found))
    (failure : login.phase ≠ .recordFailure) (success : login.phase ≠ .recordSuccess) :
    Throttled limits name (watch lib limits authenticator name state (.advance index found)) := by
  have same : toAsciiLowercase login.username = toAsciiLowercase name := by simpa [Login.names] using own
  have failures : (state.1.step lib limits authenticator (.advance index found)).failures name =
      state.1.failures name := by
    rw [step_advance here, Logins.failures, Logins.failures, ← current_congr _ _ same,
      ← current_congr _ _ same]
    exact congrArg AttemptState.failures (failures_next login state.1.attempts state.1.now found failure success)
  have counts := count_advance lib limits authenticator name here found
  simp only [own, Bool.true_and] at counts
  refine .of_period ?_ fun _ _ _ => ?_
  · have opened := counts Phase.open
    have room := throttled.room
    rw [failures]
    by_cases opens : (login.next lib limits authenticator state.1.attempts state.1.now found).2.open = true
    · rw [if_pos opens] at opened
      rcases next_open login state.1.attempts state.1.now found opens with ⟨already, -⟩ | ⟨check, unlocked⟩
      · rw [if_pos already] at opened
        omega
      · have free : state.1.lockedOut name = false := by
          rw [Logins.lockedOut, ← current_congr _ _ same, unlocked]
          rfl
        have below := admits login here own check free
        omega
    · rw [if_neg opens] at opened
      omega
  · have recorded := counts (· == .recordFailure)
    have counted := throttled.counted
    rw [if_neg (by simpa using failure)] at recorded
    rw [failures]
    split
    · rename_i wrong
      rw [if_pos (by rw [next_checksWrong here wrong]; rfl)] at recorded
      omega
    · omega

theorem throttled_success (throttled : Throttled limits name state)
    (here : state.1.calls[index]? = some login) (found : Except Error (Option (Row User)))
    (own : login.names name = true) (success : login.phase = .recordSuccess) :
    Throttled limits name (watch lib limits authenticator name state (.advance index found)) := by
  obtain ⟨username, password, phase⟩ := login
  subst success
  have same : toAsciiLowercase username = toAsciiLowercase name := by simpa [Login.names] using own
  refine .of_period ?_ fun _ _ goes => ?_
  · have opened := count_advance lib limits authenticator name here found Phase.open
    have failures : (state.1.step lib limits authenticator (.advance index found)).failures name = 0 := by
      rw [step_advance here, Logins.failures, ← current_congr _ _ same]
      exact congrArg AttemptState.failures (current_recordSuccess state.1.attempts state.1.now username)
    have room := throttled.room
    simp only [Login.next, Phase.open, Bool.and_false, Bool.false_eq_true, if_false, Nat.add_zero] at opened
    rw [failures, opened]
    omega
  · simp [Logins.endsPeriod, here, own] at goes

theorem recordFailure_stored (attempts : Attempts) (now : Time) (username : String)
    (unlocked : (attempts.current now username).blockedUntil = none) :
    attempts.recordFailure limits now username (toAsciiLowercase username) =
      some (countFailure limits now (attempts.current now username).failures) := by
  cases stored : (attempts (toAsciiLowercase username)).getD ⟨0, none⟩ with
  | mk failures blockedUntil =>
      simp only [Attempts.current, stored] at unlocked ⊢
      simp only [Attempts.recordFailure, stored]
      cases blockedUntil with
      | none => simp [lapse_none]
      | some stop =>
          rw [lapse_some] at unlocked ⊢
          by_cases locked : now < stop
          · simp [locked] at unlocked
          · simp [locked]

theorem throttled_failure (throttled : Throttled limits name state)
    (here : state.1.calls[index]? = some login) (found : Except Error (Option (Row User)))
    (own : login.names name = true) (failure : login.phase = .recordFailure) :
    Throttled limits name (watch lib limits authenticator name state (.advance index found)) := by
  obtain ⟨username, password, phase⟩ := login
  subst failure
  have same : toAsciiLowercase username = toAsciiLowercase name := by simpa [Login.names] using own
  have opened := count_advance lib limits authenticator name here found Phase.open
  have recorded := count_advance lib limits authenticator name here found (· == .recordFailure)
  simp only [Login.next, Phase.open, own, Bool.true_and, Bool.and_false, Bool.false_eq_true, beq_self_eq_true,
    if_true, if_false, Nat.add_zero] at opened recorded
  rw [if_neg (by decide)] at recorded
  have room := throttled.room
  have counted := throttled.counted
  have before : state.1.attempts.current state.1.now username = state.1.attempts.current state.1.now name :=
    current_congr _ _ same
  have after : (state.1.step lib limits authenticator (.advance index found)).attempts.current state.1.now name =
      if state.1.lockedOut name then state.1.attempts.current state.1.now name
      else lapse state.1.now (countFailure limits state.1.now (state.1.failures name)) := by
    rw [step_advance here, ← current_congr _ _ same]
    simp only [Login.next]
    rw [current_recordFailure, before]
    rfl
  have below : state.1.failures name < limits.maxFailures.toNat := by omega
  have clock : (state.1.step lib limits authenticator (.advance index found)).now = state.1.now := by
    rw [step_advance here]
  have counts := countFailure_eq limits state.1.now (.inr below)
  by_cases reached : state.1.failures name + 1 ≥ limits.maxFailures.toNat
  · rw [if_pos reached] at counts
    refine .of_period ?_ fun unlocked _ goes => ?_
    · rw [Logins.failures, clock, after]
      split
      · change state.1.failures name + _ ≤ _
        omega
      · have fewer := lapse_failures_le state.1.now (countFailure limits state.1.now (state.1.failures name))
        have none : (countFailure limits state.1.now (state.1.failures name)).failures = 0 := by rw [counts]
        omega
    · have stored : state.1.attempts.recordFailure limits state.1.now username (toAsciiLowercase username) =
          some (countFailure limits state.1.now (state.1.failures name)) := by
        rw [recordFailure_stored _ _ _ (by rw [before]; simpa [Logins.lockedOut] using unlocked), before]
        rfl
      rw [counts, same] at stored
      simp [Logins.endsPeriod, step_advance here, here, own, Login.next, stored] at goes
  · rw [if_neg reached] at counts
    have failures : (state.1.step lib limits authenticator (.advance index found)).failures name =
        if state.1.lockedOut name then state.1.failures name else state.1.failures name + 1 := by
      rw [Logins.failures, clock, after, counts, lapse_none]
      split <;> rfl
    refine .of_period ?_ fun unlocked _ _ => ?_
    · rw [failures]
      split <;> omega
    · have right : state.1.checksWrong lib name (.advance index found) = false := by
        simp only [Logins.checksWrong, here]
      rw [failures, unlocked, right]
      simp only [Bool.false_eq_true, if_false]
      omega

/-! ## Runs -/

theorem throttled_watch (throttled : Throttled limits name state) (turn : Turn)
    (admits : state.1.admits limits name turn) :
    Throttled limits name (watch lib limits authenticator name state turn) := by
  cases turn with
  | call username password => exact throttled_call throttled username password
  | elapse duration => exact throttled_elapse throttled duration
  | advance index found =>
      cases here : state.1.calls[index]? with
      | none =>
          have idle : state.1.step lib limits authenticator (.advance index found) = state.1 := by
            simp only [Logins.step, here]
          refine .of_period ?_ fun _ _ _ => ?_
          · rw [idle]
            exact throttled.room
          · simp only [idle, Logins.checksWrong, here]
            exact throttled.counted
      | some login =>
          by_cases own : login.names name = true
          · by_cases failure : login.phase = .recordFailure
            · exact throttled_failure throttled here found own failure
            · by_cases success : login.phase = .recordSuccess
              · exact throttled_success throttled here found own success
              · exact throttled_before throttled here found own admits failure success
          · exact throttled_other throttled here found (by simpa using own)

theorem throttled_run {turns : List Turn} (throttled : Throttled limits name state)
    (admitting : Admitting lib limits authenticator name state turns) :
    Throttled limits name (turns.foldl (watch lib limits authenticator name) state) := by
  induction turns generalizing state with
  | nil => exact throttled
  | cons turn turns ih => exact ih (throttled_watch throttled turn admitting.1) admitting.2

end

/-- In every interleaving in which the throttle lets a call through only when the failures counted and
the calls already let through leave room for it, no more wrong passwords are checked in a counting
period than the limit says. -/
theorem wrong_passwords_bounded (lib : Libraries) (limits : LoginLimits) (authenticator : Authenticator)
    (name : String) (turns : List Turn)
    (admitting : Admitting lib limits authenticator name (.start, 0) turns) :
    (turns.foldl (watch lib limits authenticator name) (.start, 0)).2 ≤ limits.maxFailures.toNat :=
  (throttled_run ⟨Nat.zero_le _, Nat.zero_le _⟩ admitting).bounded

/-- Calls of the same user name with a wrong password, each taken to the end of its check. -/
def guesses (calls : Nat) : List Turn :=
  List.replicate calls (Turn.call "ann" "guess") ++
    (List.range calls).map (Turn.advance · (.ok none)) ++ (List.range calls).map (Turn.advance · (.ok none))

theorem wrong_passwords_bounded_five :
    ((guesses 5).foldl (watch Sample.libraries ⟨5, 60⟩ (.static "ann" "secret") "ann") (.start, 0)).2 ≤ 5 := by
  refine wrong_passwords_bounded Sample.libraries ⟨5, 60⟩ (.static "ann" "secret") "ann" (guesses 5) ?_
  decide +kernel

/-- Six calls in parallel all pass the check, and six wrong passwords are checked. -/
theorem six_wrong_passwords :
    ((guesses 6).foldl (watch Sample.libraries ⟨5, 60⟩ (.static "ann" "secret") "ann") (.start, 0)).2 = 6 := by
  decide +kernel

end ImapCache.Auth
