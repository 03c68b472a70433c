import ImapCache.Lib.Program

/-!
# Systems of concurrent programs

Any number of processes run programs over one shared state, one call at a time and in any order.
A process can crash between two calls, and the state can change by itself. A run keeps its
transitions, the most recent first, so that a property may speak of what has happened.
-/

namespace ImapCache.Lib

structure System (σ : Signature) (S : Type) where
  handler : Handler σ S
  Task : Type
  Out : Type
  /-- The program of a task, run by the process of that number. -/
  code : Nat → Task → Prog σ Out
  Env : Type
  disturb : Env → S → S

namespace System
variable {σ : Signature} {S : Type}

structure Config (sys : System σ S) where
  state : S
  procs : Nat → Option (sys.Task × Prog σ sys.Out)

inductive Event (sys : System σ S) where
  | spawn (pid : Nat) (task : sys.Task)
  | call (pid : Nat) (task : sys.Task) (op : σ.Op) (fault : Fault σ.Err)
  | finish (pid : Nat) (task : sys.Task) (outcome : Except σ.Err sys.Out)
  | crash (pid : Nat) (task : sys.Task)
  | disturb (change : sys.Env)

/-- The process that an event belongs to. -/
def Event.actor {sys : System σ S} : Event sys → Option Nat
  | spawn pid _ | call pid _ _ _ | finish pid _ _ | crash pid _ => some pid
  | disturb _ => none

variable {sys : System σ S}

/-- No process. -/
def idle (sys : System σ S) (state : S) : Config sys := ⟨state, fun _ => none⟩

def Config.set (c : Config sys) (pid : Nat) (proc : Option (sys.Task × Prog σ sys.Out)) :
    Config sys := { c with procs := Function.update c.procs pid proc }

@[simp] theorem Config.set_state (c : Config sys) (pid : Nat)
    (proc : Option (sys.Task × Prog σ sys.Out)) : (c.set pid proc).state = c.state := rfl

@[simp] theorem Config.set_procs (c : Config sys) (pid : Nat)
    (proc : Option (sys.Task × Prog σ sys.Out)) :
    (c.set pid proc).procs = Function.update c.procs pid proc := rfl

/-- The process has a call of that task still to make. -/
def Config.Busy (c : Config sys) (pid : Nat) (task : sys.Task) : Prop :=
  ∃ op next, c.procs pid = some (task, .call op next)

inductive Step : Config sys → Event sys → Config sys → Prop where
  | spawn {c pid task} (free : c.procs pid = none) :
      Step c (.spawn pid task) (c.set pid (some (task, sys.code pid task)))
  | call {c pid task op next} (fault) (here : c.procs pid = some (task, .call op next)) :
      Step c (.call pid task op fault)
        { state := (sys.handler.answer fault op c.state).2
          procs := Function.update c.procs pid
            (some (task, next (sys.handler.answer fault op c.state).1)) }
  | returned {c pid task value} (here : c.procs pid = some (task, .ret value)) :
      Step c (.finish pid task (.ok value)) (c.set pid none)
  | failed {c pid task failure} (here : c.procs pid = some (task, .throw failure)) :
      Step c (.finish pid task (.error failure)) (c.set pid none)
  | crash {c pid task program} (here : c.procs pid = some (task, program)) :
      Step c (.crash pid task) (c.set pid none)
  | disturb {c} (change) : Step c (.disturb change) { c with state := sys.disturb change c.state }

structure Transition (sys : System σ S) where
  before : Config sys
  event : Event sys
  after : Config sys

/-- Runs with their transitions, the most recent first. -/
inductive Run (start : Config sys) : List (Transition sys) → Config sys → Prop where
  | start : Run start [] start
  | step {trace c event c'} (run : Run start trace c) (step : Step c event c') :
      Run start (⟨c, event, c'⟩ :: trace) c'

/-- Every transition of a trace satisfies a condition that may depend on the earlier ones. -/
def Always (condition : List (Transition sys) → Transition sys → Prop) :
    List (Transition sys) → Prop
  | [] => True
  | t :: older => condition older t ∧ Always condition older

instance Always.decidable (condition : List (Transition sys) → Transition sys → Prop)
    [∀ older t, Decidable (condition older t)] :
    (trace : List (Transition sys)) → Decidable (Always condition trace)
  | [] => inferInstanceAs (Decidable True)
  | t :: older =>
      have := Always.decidable condition older
      inferInstanceAs (Decidable (condition older t ∧ Always condition older))

theorem Always.split {condition : List (Transition sys) → Transition sys → Prop}
    {newer older : List (Transition sys)} {t : Transition sys}
    (always : Always condition (newer ++ t :: older)) : condition older t ∧ Always condition older := by
  induction newer with
  | nil => exact always
  | cons t' newer ih => exact ih always.2

/-- What holds at the start and is kept by every step that meets the condition holds after every
run whose steps all meet it. -/
theorem Run.invariant {start : Config sys}
    {condition : List (Transition sys) → Transition sys → Prop}
    {inv : List (Transition sys) → Config sys → Prop} (initially : inv [] start)
    (keeps : ∀ older c event c', Run start older c → Step c event c' →
      condition older ⟨c, event, c'⟩ → inv older c → inv (⟨c, event, c'⟩ :: older) c')
    {trace : List (Transition sys)} {c : Config sys} (run : Run start trace c)
    (always : Always condition trace) : inv trace c := by
  induction run with
  | start => exact initially
  | step run step ih => exact keeps _ _ _ _ run step always.1 (ih always.2)

theorem Run.split {start c : Config sys} {newer older : List (Transition sys)} {t : Transition sys}
    (run : Run start (newer ++ t :: older) c) :
    Run start older t.before ∧ Step t.before t.event t.after := by
  generalize same : newer ++ t :: older = trace at run
  induction run generalizing newer with
  | start => simp at same
  | step run step ih =>
      cases newer with
      | nil =>
          obtain ⟨rfl, rfl⟩ := List.cons.inj same
          exact ⟨run, step⟩
      | cons t' newer => exact ih (List.cons.inj same).2

theorem Run.unchanged {start c : Config sys} {newer older : List (Transition sys)}
    {t : Transition sys} {α : Type} (f : Config sys → α) (run : Run start (newer ++ t :: older) c)
    (keeps : ∀ t' ∈ newer, f t'.after = f t'.before) : f c = f t.after := by
  generalize same : newer ++ t :: older = trace at run
  induction run generalizing newer with
  | start => simp at same
  | step run step ih =>
      cases newer with
      | nil =>
          obtain ⟨rfl, rfl⟩ := List.cons.inj same
          rfl
      | cons t' newer =>
          obtain ⟨rfl, rest⟩ := List.cons.inj same
          have last := keeps _ (List.mem_cons_self ..)
          have earlier := ih (fun t' member => keeps t' (List.mem_cons_of_mem _ member)) rest
          exact last.trans earlier

/-! ## Scheduling -/

inductive Label (sys : System σ S) where
  | spawn (pid : Nat) (task : sys.Task)
  | step (pid : Nat) (fault : Fault σ.Err)
  | finish (pid : Nat)
  | crash (pid : Nat)
  | disturb (change : sys.Env)

/-- A process from its first call to its last, with nothing in between. -/
def whole (pid : Nat) (task : sys.Task) (calls : Nat) : List (Label sys) :=
  .spawn pid task :: List.replicate calls (.step pid .none) ++ [.finish pid]

/-- The step that a scheduler asks for, if it can be taken. -/
def next (c : Config sys) : Label sys → Option (Event sys × Config sys)
  | .spawn pid task =>
      match c.procs pid with
      | none => some (.spawn pid task, c.set pid (some (task, sys.code pid task)))
      | some _ => none
  | .step pid fault =>
      match c.procs pid with
      | some (task, .call op continuation) =>
          let reply := sys.handler.answer fault op c.state
          some (.call pid task op fault,
            ⟨reply.2, Function.update c.procs pid (some (task, continuation reply.1))⟩)
      | _ => none
  | .finish pid =>
      match c.procs pid with
      | some (task, .ret value) => some (.finish pid task (.ok value), c.set pid none)
      | some (task, .throw failure) => some (.finish pid task (.error failure), c.set pid none)
      | _ => none
  | .crash pid =>
      match c.procs pid with
      | some (task, _) => some (.crash pid task, c.set pid none)
      | none => none
  | .disturb change => some (.disturb change, { c with state := sys.disturb change c.state })

theorem next_step {c c' : Config sys} {label : Label sys} {event : Event sys}
    (h : next c label = some (event, c')) : Step c event c' := by
  unfold next at h
  split at h
  all_goals try split at h
  all_goals simp only [Option.some.injEq, Prod.mk.injEq, reduceCtorEq] at h
  all_goals obtain ⟨rfl, rfl⟩ := h
  all_goals constructor
  all_goals assumption

/-- Follow a schedule, as far as `trace` is already made. -/
def schedule (trace : List (Transition sys)) (c : Config sys) :
    List (Label sys) → Option (List (Transition sys) × Config sys)
  | [] => some (trace, c)
  | label :: labels =>
      match next c label with
      | none => none
      | some (event, c') => schedule (⟨c, event, c'⟩ :: trace) c' labels

theorem schedule_run {start c c' : Config sys} {trace trace' : List (Transition sys)}
    {labels : List (Label sys)} (run : Run start trace c)
    (h : schedule trace c labels = some (trace', c')) : Run start trace' c' := by
  induction labels generalizing trace c with
  | nil =>
      simp only [schedule, Option.some.injEq, Prod.mk.injEq] at h
      obtain ⟨rfl, rfl⟩ := h
      exact run
  | cons label labels ih =>
      simp only [schedule] at h
      split at h
      · cases h
      · rename_i event next taken
        exact ih (run.step (next_step taken)) h

end System

/-! ## Protocols of single processes -/

/-- The operations that a process may ask for in a state, how an answer changes the state, and
what a process may rely on when it is given a value. -/
structure Protocol (σ : Signature) (Q : Type) where
  allows : Q → σ.Op → Prop
  next : Q → (op : σ.Op) → Except σ.Err (σ.Ret op) → Q
  expects : (op : σ.Op) → σ.Ret op → Prop

/-- An answer that the operation can have. -/
structure Protocol.Possible {σ : Signature} {Q : Type} (π : Protocol σ Q) (op : σ.Op)
    (answer : Except σ.Err (σ.Ret op)) : Prop where
  answered : σ.fallible op = false → ∃ value, answer = .ok value
  expected : ∀ value, answer = .ok value → π.expects op value

/-- A handler that answers as the protocol expects. -/
def Protocol.Sound {σ : Signature} {Q S : Type} (π : Protocol σ Q) (h : Handler σ S) : Prop :=
  ∀ op s value, (h.exec op s).1 = .ok value → π.expects op value

theorem Protocol.Sound.possible {σ : Signature} {Q S : Type} {π : Protocol σ Q} {h : Handler σ S}
    (sound : π.Sound h) (fault : Fault σ.Err) (op : σ.Op) (s : S) :
    π.Possible op (h.answer fault op s).1 where
  answered := h.answer_total fault op s
  expected value ok := sound op s value (by rw [← Handler.answer_ok ok, ok])

namespace Prog
variable {σ : Signature} {Q α β : Type} (π : Protocol σ Q)

/-- From the given state on, the program asks only for what the protocol allows, and its end
satisfies `post`. -/
def Follows (post : Except σ.Err α → Q → Prop) : Q → Prog σ α → Prop
  | q, ret value => post (.ok value) q
  | q, throw failure => post (.error failure) q
  | q, call op next => π.allows q op ∧
      ∀ answer, π.Possible op answer → Follows post (π.next q op answer) (next answer)

variable {π} {post post' : Except σ.Err α → Q → Prop} {q : Q}

theorem Follows.mono {p : Prog σ α} (follows : p.Follows π post q)
    (implies : ∀ outcome q', post outcome q' → post' outcome q') : p.Follows π post' q := by
  induction p generalizing q with
  | ret value => exact implies _ _ follows
  | throw failure => exact implies _ _ follows
  | call op next ih =>
      exact ⟨follows.1, fun answer possible => ih answer (follows.2 answer possible)⟩

theorem follows_bind {p : Prog σ α} {f : α → Prog σ β} {post : Except σ.Err β → Q → Prop}
    (follows : p.Follows π (fun outcome q' => match outcome with
      | .ok value => (f value).Follows π post q'
      | .error failure => post (.error failure) q') q) : (p.bind f).Follows π post q := by
  induction p generalizing q with
  | ret value => exact follows
  | throw failure => exact follows
  | call op next ih =>
      exact ⟨follows.1, fun answer possible => ih answer (follows.2 answer possible)⟩

theorem follows_attempt {p : Prog σ α} {post : Except σ.Err (Except σ.Err α) → Q → Prop}
    (follows : p.Follows π (fun outcome => post (.ok outcome)) q) :
    p.attempt.Follows π post q := by
  induction p generalizing q with
  | ret value => exact follows
  | throw failure => exact follows
  | call op next ih =>
      exact ⟨follows.1, fun answer possible => ih answer (follows.2 answer possible)⟩

theorem follows_ask {op : σ.Op} {post : Except σ.Err (σ.Ret op) → Q → Prop} (allowed : π.allows q op)
    (answers : ∀ answer, π.Possible op answer → post answer (π.next q op answer)) :
    (ask op).Follows π post q := by
  refine ⟨allowed, fun answer possible => ?_⟩
  cases answer with
  | ok value => exact answers _ possible
  | error failure => exact answers _ possible

theorem follows_tell {op : σ.Op} {post : Except σ.Err Unit → Q → Prop} (allowed : π.allows q op)
    (answers : ∀ answer, π.Possible op answer → post (.ok ()) (π.next q op answer)) :
    (tell op).Follows π post q :=
  ⟨allowed, answers⟩

theorem follows_ask_bind {op : σ.Op} {f : σ.Ret op → Prog σ β} {post : Except σ.Err β → Q → Prop}
    (allowed : π.allows q op)
    (ok : ∀ value, π.expects op value → (f value).Follows π post (π.next q op (.ok value)))
    (error : ∀ failure, σ.fallible op = true → post (.error failure) (π.next q op (.error failure))) :
    ((ask op).bind f).Follows π post q := by
  refine follows_bind (follows_ask allowed fun answer possible => ?_)
  cases answer with
  | ok value => exact ok value (possible.expected value rfl)
  | error failure =>
      refine error failure ?_
      by_contra infallible
      obtain ⟨value, eq⟩ := possible.answered (by simpa using infallible)
      cases eq

theorem follows_tell_bind {op : σ.Op} {f : Unit → Prog σ β} {post : Except σ.Err β → Q → Prop}
    (allowed : π.allows q op) (rest : ∀ answer, (f ()).Follows π post (π.next q op answer)) :
    ((tell op).bind f).Follows π post q :=
  follows_bind (follows_tell allowed fun answer _ => rest answer)

theorem follows_orThrow_bind {value : Option α} {failure : σ.Err} {f : α → Prog σ β}
    {post : Except σ.Err β → Q → Prop} (some : ∀ v, value = some v → (f v).Follows π post q)
    (none : value = none → post (.error failure) q) :
    ((orThrow value failure).bind f).Follows π post q := by
  cases value with
  | none => exact none rfl
  | some v => exact some v rfl

theorem follows_ofExcept_bind {outcome : Except σ.Err α} {f : α → Prog σ β}
    {post : Except σ.Err β → Q → Prop} (ok : ∀ v, outcome = .ok v → (f v).Follows π post q)
    (error : ∀ failure, outcome = .error failure → post (.error failure) q) :
    ((ofExcept outcome).bind f).Follows π post q := by
  cases outcome with
  | ok v => exact ok v rfl
  | error failure => exact error failure rfl

/-- A loop that carries a state of the protocol from round to round. -/
theorem follows_foldlM {items : List β} {f : α → β → Prog σ α} {init : α}
    (inv : List β → Q → Prop) (start : inv items q)
    (round : ∀ item rest acc q, inv (item :: rest) q → (f acc item).Follows π
      (fun outcome q' => match outcome with
        | .ok _ => inv rest q'
        | .error failure => post (.error failure) q') q)
    (finished : ∀ value q', inv [] q' → post (.ok value) q') :
    (items.foldlM f init).Follows π post q := by
  induction items generalizing init q with
  | nil => exact finished init q start
  | cons item rest ih =>
      rw [List.foldlM_cons, bind_eq]
      refine follows_bind ((round item rest init q start).mono fun outcome q' holds => ?_)
      cases outcome with
      | ok value => exact ih holds
      | error failure => exact holds

theorem Uses.follows {p : Prog σ α} {permitted : σ.Op → Prop} (uses : p.Uses permitted)
    (allowed : ∀ op, permitted op → π.allows q op)
    (keeps : ∀ op answer, permitted op → π.next q op answer = q) :
    p.Follows π (fun _ q' => q' = q) q := by
  induction p with
  | ret value => rfl
  | throw failure => rfl
  | call op next ih =>
      refine ⟨allowed op uses.1, fun answer _ => ?_⟩
      rw [keeps op answer uses.1]
      exact ih answer (uses.2 answer)

end Prog

namespace System
variable {σ : Signature} {S Q : Type} {sys : System σ S}

/-- The protocol state of a process after a run, from the calls it has made. -/
def progress (π : Protocol σ Q) (begin' : sys.Task → Q) :
    List (Transition sys) → Nat → Option Q
  | [], _ => none
  | t :: older, pid =>
      match t.event with
      | .spawn pid' task => if pid' = pid then some (begin' task) else progress π begin' older pid
      | .call pid' _ op fault =>
          if pid' = pid then
            (progress π begin' older pid).map fun q =>
              π.next q op (sys.handler.answer fault op t.before.state).1
          else progress π begin' older pid
      | .finish pid' _ _ => if pid' = pid then none else progress π begin' older pid
      | .crash pid' _ => if pid' = pid then none else progress π begin' older pid
      | .disturb _ => progress π begin' older pid

theorem progress_other {π : Protocol σ Q} {begin' : sys.Task → Q} {t : Transition sys}
    {older : List (Transition sys)} {pid : Nat} (other : t.event.actor ≠ some pid) :
    progress π begin' (t :: older) pid = progress π begin' older pid := by
  obtain ⟨before, event, after⟩ := t
  cases event with
  | disturb change => rfl
  | _ =>
      have ne : _ ≠ pid := fun eq => other (congrArg some eq)
      simp only [progress, ne, if_false]

/-- The processes that a run has started. -/
def spawned : List (Transition sys) → List Nat
  | [] => []
  | t :: older =>
      match t.event with
      | .spawn pid _ => pid :: spawned older
      | _ => spawned older

theorem mem_spawned {π : Protocol σ Q} {begin' : sys.Task → Q} {trace : List (Transition sys)}
    {pid : Nat} {q : Q} (reached : progress π begin' trace pid = some q) : pid ∈ spawned trace := by
  induction trace generalizing q with
  | nil => cases reached
  | cons t older ih =>
      obtain ⟨before, event, after⟩ := t
      cases event with
      | spawn pid' task =>
          by_cases eq : pid' = pid
          · simp [spawned, eq]
          · simp only [progress, eq, if_false] at reached
            exact List.mem_cons_of_mem _ (ih reached)
      | call pid' task op fault =>
          by_cases eq : pid' = pid
          · simp only [progress, eq, if_true, Option.map_eq_some_iff] at reached
            obtain ⟨q', reached', -⟩ := reached
            exact ih reached'
          · simp only [progress, eq, if_false] at reached
            exact ih reached
      | finish pid' task outcome =>
          by_cases eq : pid' = pid
          · simp [progress, eq] at reached
          · simp only [progress, eq, if_false] at reached
            exact ih reached
      | crash pid' task =>
          by_cases eq : pid' = pid
          · simp [progress, eq] at reached
          · simp only [progress, eq, if_false] at reached
            exact ih reached
      | disturb change => exact ih reached

/-- The program of every process follows its protocol from the state it has reached. -/
theorem Run.follows {π : Protocol σ Q} (sound : π.Sound sys.handler) {begin' : sys.Task → Q}
    {post : sys.Task → Except σ.Err sys.Out → Q → Prop}
    (code : ∀ pid task, (sys.code pid task).Follows π (post task) (begin' task)) {s : S}
    {trace : List (Transition sys)} {c : Config sys} (run : Run (sys.idle s) trace c) (pid : Nat) :
    match c.procs pid with
    | none => progress π begin' trace pid = none
    | some (task, program) =>
        ∃ q, progress π begin' trace pid = some q ∧ program.Follows π (post task) q := by
  induction run with
  | start => rfl
  | @step older c event c' run step ih =>
      cases step with
      | @spawn spawned task free =>
          by_cases eq : spawned = pid
          · subst eq
            simpa [progress] using code spawned task
          · simpa [progress, eq, Function.update_of_ne (Ne.symm eq)] using ih
      | @call caller task op next fault here =>
          by_cases eq : caller = pid
          · subst eq
            simp only [here] at ih
            obtain ⟨q, reached, follows⟩ := ih
            simp only [progress, Function.update_self, reached, if_true, Option.map_some]
            exact ⟨_, rfl, follows.2 _ (sound.possible fault op c.state)⟩
          · simpa [progress, eq, Function.update_of_ne (Ne.symm eq)] using ih
      | @returned finished task value here =>
          by_cases eq : finished = pid
          · subst eq
            simp [progress]
          · simpa [progress, eq, Function.update_of_ne (Ne.symm eq)] using ih
      | @failed finished task failure here =>
          by_cases eq : finished = pid
          · subst eq
            simp [progress]
          · simpa [progress, eq, Function.update_of_ne (Ne.symm eq)] using ih
      | @crash crashed task program here =>
          by_cases eq : crashed = pid
          · subst eq
            simp [progress]
          · simpa [progress, eq, Function.update_of_ne (Ne.symm eq)] using ih
      | disturb change => simpa [progress] using ih

theorem Run.allowed {π : Protocol σ Q} (sound : π.Sound sys.handler) {begin' : sys.Task → Q}
    {post : sys.Task → Except σ.Err sys.Out → Q → Prop}
    (code : ∀ pid task, (sys.code pid task).Follows π (post task) (begin' task)) {s : S}
    {trace : List (Transition sys)} {c c' : Config sys} (run : Run (sys.idle s) trace c)
    {pid : Nat} {task : sys.Task} {op : σ.Op} {fault : Fault σ.Err}
    (step : Step c (.call pid task op fault) c') :
    ∃ q, progress π begin' trace pid = some q ∧ π.allows q op := by
  cases step with
  | call fault here =>
      have follows := run.follows sound code pid
      simp only [here] at follows
      obtain ⟨q, reached, follows⟩ := follows
      exact ⟨q, reached, follows.1⟩

theorem Run.progress_task {π : Protocol σ Q} {begin' : sys.Task → Q} {relates : sys.Task → Q → Prop}
    (first : ∀ task, relates task (begin' task))
    (keeps : ∀ task q op answer, relates task q → relates task (π.next q op answer)) {s : S}
    {trace : List (Transition sys)} {c : Config sys} (run : Run (sys.idle s) trace c) {pid : Nat}
    {task : sys.Task} {program : Prog σ sys.Out} (here : c.procs pid = some (task, program)) :
    ∃ q, progress π begin' trace pid = some q ∧ relates task q := by
  induction run generalizing program with
  | start => cases here
  | @step older c event c' run step ih =>
      by_cases own : event.actor = some pid
      · cases step with
        | spawn free =>
            cases own
            rw [Config.set_procs, Function.update_self] at here
            cases here
            exact ⟨_, by simp [progress], first _⟩
        | @call caller task' op next fault here' =>
            cases own
            simp only [Function.update_self] at here
            cases here
            obtain ⟨q, reached, related⟩ := ih here'
            refine ⟨π.next q op (sys.handler.answer fault op c.state).1, ?_, keeps _ _ _ _ related⟩
            simp only [progress, if_true, reached, Option.map_some]
        | returned _ | failed _ | crash _ =>
            cases own
            rw [Config.set_procs, Function.update_self] at here
            cases here
        | disturb change => cases own
      · have before : c.procs pid = some (task, program) := by
          cases step with
          | disturb change => exact here
          | _ =>
              have ne : pid ≠ _ := fun eq => own (congrArg some eq.symm)
              simpa [Function.update_of_ne ne] using here
        rw [progress_other own]
        exact ih before

theorem Run.program_uses {permitted : Nat → sys.Task → σ.Op → Prop}
    (code : ∀ pid task, (sys.code pid task).Uses (permitted pid task)) {s : S}
    {trace : List (Transition sys)} {c : Config sys} (run : Run (sys.idle s) trace c) {pid : Nat}
    {task : sys.Task} {program : Prog σ sys.Out} (here : c.procs pid = some (task, program)) :
    program.Uses (permitted pid task) := by
  induction run generalizing program with
  | start => cases here
  | @step older c event c' run step ih =>
      have other {pid' proc} (updated : Function.update c.procs pid' proc pid = some (task, program))
          (own : pid' = pid → proc = some (task, program) → program.Uses (permitted pid task)) :
          program.Uses (permitted pid task) := by
        by_cases eq : pid' = pid
        · subst eq
          exact own rfl (by simpa using updated)
        · rw [Function.update_of_ne (Ne.symm eq)] at updated
          exact ih updated
      cases step with
      | spawn free =>
          refine other here fun same spawned => ?_
          cases spawned
          exact same ▸ code _ _
      | call fault caller =>
          refine other here fun same called => ?_
          cases called
          subst same
          have uses := ih caller
          exact uses.2 _
      | returned _ => exact other here fun _ gone => nomatch gone
      | failed _ => exact other here fun _ gone => nomatch gone
      | crash _ => exact other here fun _ gone => nomatch gone
      | disturb change => exact ih here

/-- A call that a run makes is among the operations that its task uses. -/
theorem Run.uses {permitted : Nat → sys.Task → σ.Op → Prop}
    (code : ∀ pid task, (sys.code pid task).Uses (permitted pid task)) {s : S}
    {trace : List (Transition sys)} {c c' : Config sys} (run : Run (sys.idle s) trace c)
    {pid : Nat} {task : sys.Task} {op : σ.Op} {fault : Fault σ.Err}
    (step : Step c (.call pid task op fault) c') : permitted pid task op := by
  cases step with
  | call fault here => exact (run.program_uses code here).1

end System
end ImapCache.Lib
