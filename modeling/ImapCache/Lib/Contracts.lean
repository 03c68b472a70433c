import ImapCache.Lib.System

/-!
# Contracts of programs

A program honours a contract if it asks only for what the contract permits, as long as its own calls are
answered as the contract expects. In a run where permitted calls are answered as expected, whatever other
processes do in between, every call of a process is then permitted.
-/

namespace ImapCache.Lib

structure Contract (σ : Signature) where
  permits : σ.Op → Prop
  expects : (op : σ.Op) → σ.Ret op → Prop

namespace Contract
variable {σ : Signature}

/-- The answer is an error or a value that is expected. -/
def Accepts (k : Contract σ) (op : σ.Op) (answer : Except σ.Err (σ.Ret op)) : Prop :=
  ∀ value, answer = .ok value → k.expects op value

/-- The contract of a process that only some have to keep. -/
def when (condition : Prop) (k : Contract σ) : Contract σ where
  permits op := condition → k.permits op
  expects op value := condition → k.expects op value

end Contract

namespace Prog
variable {σ : Signature} {α β : Type} (k : Contract σ)

/-- The program honours the contract and returns only values that satisfy `post`. -/
def Honours (post : α → Prop) : Prog σ α → Prop
  | ret value => post value
  | throw _ => True
  | call op next => k.permits op ∧ ∀ answer, k.Accepts op answer → (next answer).Honours post

variable {k} {post : α → Prop} {post' : β → Prop}

theorem Honours.mono {p : Prog σ α} {post' : α → Prop} (honours : p.Honours k post)
    (implies : ∀ value, post value → post' value) : p.Honours k post' := by
  induction p with
  | ret value => exact implies value honours
  | throw failure => trivial
  | call op next ih => exact ⟨honours.1, fun answer accepts => ih answer (honours.2 answer accepts)⟩

theorem Honours.any {p : Prog σ α} (honours : p.Honours k post) : p.Honours k fun _ => True :=
  honours.mono fun _ _ => trivial

theorem Honours.weaken {k' : Contract σ} {p : Prog σ α} (honours : p.Honours k post)
    (permits : ∀ op, k.permits op → k'.permits op)
    (expects : ∀ op value, k.permits op → k'.expects op value → k.expects op value) : p.Honours k' post := by
  induction p with
  | ret value => exact honours
  | throw failure => trivial
  | call op next ih =>
      refine ⟨permits op honours.1, fun answer accepts => ih answer (honours.2 answer ?_)⟩
      exact fun value ok => expects op value honours.1 (accepts value ok)

theorem Honours.bind {p : Prog σ α} {f : α → Prog σ β} (first : p.Honours k post)
    (rest : ∀ value, post value → (f value).Honours k post') : (p.bind f).Honours k post' := by
  induction p with
  | ret value => exact rest value first
  | throw failure => trivial
  | call op next ih => exact ⟨first.1, fun answer accepts => ih answer (first.2 answer accepts)⟩

theorem honours_bind {p : Prog σ α} {f : α → Prog σ β} (first : p.Honours k fun _ => True)
    (rest : ∀ value, (f value).Honours k post') : (p.bind f).Honours k post' :=
  first.bind fun value _ => rest value

theorem Honours.attempt {p : Prog σ α} (honours : p.Honours k post) :
    p.attempt.Honours k fun outcome => ∀ value, outcome = .ok value → post value := by
  induction p with
  | ret value =>
      rintro _ ⟨⟩
      exact honours
  | throw failure =>
      intro value eq
      cases eq
  | call op next ih => exact ⟨honours.1, fun answer accepts => ih answer (honours.2 answer accepts)⟩

theorem honours_ask {op : σ.Op} (permitted : k.permits op) : (ask op).Honours k (k.expects op) := by
  refine ⟨permitted, fun answer accepts => ?_⟩
  cases answer with
  | ok value => exact accepts value rfl
  | error failure => trivial

theorem honours_ask_bind {op : σ.Op} {f : σ.Ret op → Prog σ β} (permitted : k.permits op)
    (rest : ∀ value, k.expects op value → (f value).Honours k post') : ((ask op).bind f).Honours k post' :=
  (honours_ask permitted).bind rest

theorem honours_tell {op : σ.Op} (permitted : k.permits op) : (tell op).Honours k fun _ => True :=
  ⟨permitted, fun _ _ => trivial⟩

theorem honours_orThrow (value : Option α) (failure : σ.Err) :
    (orThrow value failure : Prog σ α).Honours k fun v => value = some v := by
  cases value with
  | none => trivial
  | some v => exact rfl

theorem honours_ofExcept (outcome : Except σ.Err α) :
    (ofExcept outcome : Prog σ α).Honours k fun value => outcome = .ok value := by
  cases outcome with
  | ok value => exact rfl
  | error failure => trivial

theorem honours_onlyIf {condition : Bool} {p : Prog σ Unit}
    (honours : condition = true → p.Honours k fun _ => True) :
    (onlyIf condition p).Honours k fun _ => True := by
  cases condition with
  | true => exact honours rfl
  | false => trivial

/-- The loop rule for what a loop carries from round to round. -/
theorem honours_foldlM {items : List β} {f : α → β → Prog σ α} {init : α} (start : post init)
    (round : ∀ acc, ∀ item ∈ items, post acc → (f acc item).Honours k post) :
    (items.foldlM f init).Honours k post := by
  induction items generalizing init with
  | nil => exact start
  | cons item rest ih =>
      rw [List.foldlM_cons, bind_eq]
      refine (round init item (List.mem_cons_self ..) start).bind fun acc holds => ?_
      exact ih holds fun acc' other member => round acc' other (List.mem_cons_of_mem _ member)

theorem honours_rounds {items : List β} {f : α → β → Prog σ α} {init : α}
    (round : ∀ acc, ∀ item ∈ items, (f acc item).Honours k fun _ => True) :
    (items.foldlM f init).Honours k fun _ => True :=
  honours_foldlM trivial fun acc item member _ => round acc item member

theorem honours_forEach {items : List β} {f : β → Prog σ Unit}
    (round : ∀ item ∈ items, (f item).Honours k fun _ => True) :
    (forEach items f).Honours k fun _ => True :=
  honours_foldlM trivial fun _ item member _ => round item member

theorem Uses.honours {p : Prog σ α} (uses : p.Uses k.permits) : p.Honours k fun _ => True := by
  induction p with
  | ret value => trivial
  | throw failure => trivial
  | call op next ih => exact ⟨uses.1, fun answer _ => ih answer (uses.2 answer)⟩

theorem honours_when {condition : Prop} {p : Prog σ α} (honours : condition → p.Honours k post) :
    p.Honours (k.when condition) fun value => condition → post value := by
  by_cases holds : condition
  · have honours := honours holds
    induction p with
    | ret value => exact fun _ => honours
    | throw failure => trivial
    | call op next ih =>
        refine ⟨fun _ => honours.1, fun answer accepts => ?_⟩
        have accepted : k.Accepts op answer := fun value ok => accepts value ok holds
        exact ih answer (fun _ => honours.2 answer accepted) (honours.2 answer accepted)
  · induction p with
    | ret value => exact fun is => absurd is holds
    | throw failure => trivial
    | call op next ih =>
        exact ⟨fun is => absurd is holds, fun answer _ => ih answer fun is => absurd is holds⟩

end Prog

namespace System
variable {σ : Signature} {S : Type} {sys : System σ S}

/-- A call that the contract of its process permits is answered as the contract expects. -/
def AnsweredAs (k : Nat → sys.Task → Contract σ) (t : Transition sys) : Prop :=
  ∀ pid task op fault, t.event = .call pid task op fault → (k pid task).permits op →
    ∀ value, (sys.handler.answer fault op t.before.state).1 = .ok value → (k pid task).expects op value

/-- The call of a process is permitted, and what it finishes with satisfies its postcondition. -/
def KeptBy (k : Nat → sys.Task → Contract σ) (post : Nat → sys.Task → sys.Out → Prop) (t : Transition sys) :
    Prop :=
  (∀ pid task op fault, t.event = .call pid task op fault → (k pid task).permits op) ∧
    ∀ pid task value, t.event = .finish pid task (.ok value) → post pid task value

section Honouring
variable {k : Nat → sys.Task → Contract σ} {post : Nat → sys.Task → sys.Out → Prop}

/-- What is left of the program of a process honours its contract. -/
theorem Run.program_honours (code : ∀ pid task, (sys.code pid task).Honours (k pid task) (post pid task)) {s : S}
    {trace : List (Transition sys)} {c : Config sys} (run : Run (sys.idle s) trace c)
    (answered : ∀ t ∈ trace, AnsweredAs k t) {pid : Nat} {task : sys.Task} {program : Prog σ sys.Out}
    (here : c.procs pid = some (task, program)) : program.Honours (k pid task) (post pid task) := by
  induction run generalizing pid task program with
  | start => cases here
  | @step older c event c' run step ih =>
      have before := @ih fun t member => answered t (List.mem_cons_of_mem _ member)
      have other {pid' proc} (updated : Function.update c.procs pid' proc pid = some (task, program))
          (own : pid' = pid → proc = some (task, program) → program.Honours (k pid task) (post pid task)) :
          program.Honours (k pid task) (post pid task) := by
        by_cases same : pid' = pid
        · subst same
          exact own rfl (by simpa using updated)
        · rw [Function.update_of_ne (Ne.symm same)] at updated
          exact before updated
      cases step with
      | spawn free =>
          refine other here fun same spawned => ?_
          cases spawned
          subst same
          exact code _ _
      | @call _ _ op next fault caller =>
          refine other here fun same called => ?_
          cases called
          subst same
          have honours := before caller
          exact honours.2 _ (answered _ (List.mem_cons_self ..) _ _ _ _ rfl honours.1)
      | returned _ => exact other here fun _ gone => nomatch gone
      | failed _ => exact other here fun _ gone => nomatch gone
      | crash _ => exact other here fun _ gone => nomatch gone
      | disturb change => exact before here

/-- In a run whose permitted calls are answered as expected, every process keeps its contract. -/
theorem Run.honours (code : ∀ pid task, (sys.code pid task).Honours (k pid task) (post pid task)) {s : S}
    {trace : List (Transition sys)} {c : Config sys} (run : Run (sys.idle s) trace c)
    (answered : ∀ t ∈ trace, AnsweredAs k t) : ∀ t ∈ trace, KeptBy k post t := by
  intro t member
  obtain ⟨newer, older, rfl⟩ := List.append_of_mem member
  obtain ⟨before, step⟩ := run.split
  obtain ⟨first, event, last⟩ := t
  change Step first event last at step
  have earlier : ∀ t ∈ older, AnsweredAs k t := fun t member => answered t (by simp [member])
  constructor
  · rintro pid task op fault rfl
    cases step with
    | call fault here => exact (before.program_honours code earlier here).1
  · rintro pid task value rfl
    cases step with
    | returned here => exact before.program_honours code earlier here

end Honouring
end System
end ImapCache.Lib
