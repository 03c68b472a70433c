import ImapCache.Lib.Contracts

/-!
# Outcomes of programs

What a program can end with when something is known of the answers to its calls. Nothing is asked of the
calls themselves: this is the part of a contract that a process learns from, and in a run what it is known
to be answered is what it has been answered in the run.
-/

namespace ImapCache.Lib

variable {σ : Signature} {S α β : Type}

/-- What is known of the values that operations are answered with. -/
abbrev Knowledge (σ : Signature) := (op : σ.Op) → σ.Ret op → Prop

/-- A contract that permits everything. -/
def Contract.knowing (known : Knowledge σ) : Contract σ := ⟨fun _ => True, known⟩

namespace Prog

/-- Every value that the program returns satisfies `post`, if its calls are answered as is known. -/
def Ends (known : Knowledge σ) (post : α → Prop) (p : Prog σ α) : Prop := p.Honours (.knowing known) post

variable {known : Knowledge σ} {post : α → Prop} {post' : β → Prop}

theorem uses_any {permitted : σ.Op → Prop} (all : ∀ op, permitted op) (p : Prog σ α) : p.Uses permitted := by
  induction p with
  | ret value => trivial
  | throw failure => trivial
  | call op next ih => exact ⟨all op, ih⟩

theorem ends_ret {value : α} (holds : post value) : (ret value : Prog σ α).Ends known post := holds

theorem Ends.bind {p : Prog σ α} {f : α → Prog σ β} (first : p.Ends known post)
    (rest : ∀ value, post value → (f value).Ends known post') : (p.bind f).Ends known post' :=
  Honours.bind first rest

theorem ends_any (p : Prog σ α) : p.Ends known fun _ => True :=
  (uses_any (fun _ => trivial) p).honours

theorem ends_bind {p : Prog σ α} {f : α → Prog σ β} (rest : ∀ value, (f value).Ends known post') :
    (p.bind f).Ends known post' :=
  (ends_any p).bind fun value _ => rest value

theorem ends_ask (op : σ.Op) : (ask op).Ends known (known op) := honours_ask trivial

theorem ends_ask_bind {op : σ.Op} {f : σ.Ret op → Prog σ β}
    (rest : ∀ value, known op value → (f value).Ends known post') : ((ask op).bind f).Ends known post' :=
  (ends_ask op).bind rest

theorem Ends.attempt {p : Prog σ α} (ends : p.Ends known post) :
    p.attempt.Ends known fun outcome => ∀ value, outcome = .ok value → post value := Honours.attempt ends

theorem Honours.and_ends {k : Contract σ} {p : Prog σ α} {post' : α → Prop} (honours : p.Honours k post)
    (ends : p.Ends k.expects post') : p.Honours k fun value => post value ∧ post' value := by
  induction p with
  | ret value => exact ⟨honours, ends⟩
  | throw failure => trivial
  | call op next ih => exact ⟨honours.1, fun answer accepts => ih answer (honours.2 answer accepts) (ends.2 answer accepts)⟩

theorem Honours.ends {k : Contract σ} {p : Prog σ α} (honours : p.Honours k post) : p.Ends k.expects post :=
  honours.weaken (fun _ _ => trivial) fun _ _ _ => id

theorem Returns.ends {p : Prog σ α} (returns : p.Returns post) : p.Ends known post := by
  induction p with
  | ret value => exact returns
  | throw failure => trivial
  | call op next ih => exact ⟨trivial, fun answer _ => ih answer (returns answer trivial)⟩

theorem Uses.bind_returns {permitted : σ.Op → Prop} {p : Prog σ α} {f : α → Prog σ β} (first : p.Uses permitted)
    (returns : p.Returns post) (rest : ∀ value, post value → (f value).Uses permitted) :
    (p.bind f).Uses permitted := by
  induction p with
  | ret value => exact rest value returns
  | throw failure => trivial
  | call op next ih => exact ⟨first.1, fun answer => ih answer (first.2 answer) (returns answer trivial)⟩

end Prog

namespace System
variable {sys : System σ S}

/-- The values that the calls of a process have been answered with in a run. -/
def answered (trace : List (Transition sys)) (pid : Nat) (task : sys.Task) : Knowledge σ := fun op value =>
  ∃ t ∈ trace, ∃ fault, t.event = .call pid task op fault ∧
    (sys.handler.answer fault op t.before.state).1 = .ok value

section Answered
variable {post : Nat → sys.Task → sys.Out → Prop} {s : S} {trace : List (Transition sys)} {c : Config sys}
  (run : Run (sys.idle s) trace c)
include run

theorem Run.honours_answered {permits : Nat → sys.Task → σ.Op → Prop}
    (code : ∀ pid task, (sys.code pid task).Honours ⟨permits pid task, answered trace pid task⟩ (post pid task)) :
    ∀ t ∈ trace, KeptBy (fun pid task => ⟨permits pid task, answered trace pid task⟩) post t :=
  run.honours code fun t member _ _ _ fault event _ _ ok => ⟨t, member, fault, event, ok⟩

/-- What a process ends with in a run follows from the answers that it has got. -/
theorem Run.ends (code : ∀ pid task, (sys.code pid task).Ends (answered trace pid task) (post pid task))
    {t : Transition sys} (member : t ∈ trace) {pid : Nat} {task : sys.Task} {value : sys.Out}
    (event : t.event = .finish pid task (.ok value)) : post pid task value :=
  (@Run.honours_answered _ _ _ post _ _ _ run (fun _ _ _ => True) code t member).2 pid task value event

end Answered
end System
end ImapCache.Lib
