import Mathlib.Data.List.Basic

/-!
# Programs of fallible calls

A program asks a shared state for one operation at a time and continues with the answer. The
answer may be an error, either because the state refuses the operation or because the call fails
on its way: a lost call has no effect, the reply to a late one is lost after its effect. A program
therefore describes every run of the code it models, complete or cut short at any call.
-/

namespace ImapCache.Lib

structure Signature where
  Op : Type
  Ret : Op → Type
  Err : Type
  /-- Whether a call of the operation can be lost or late. -/
  fallible : Op → Bool

inductive Prog (σ : Signature) (α : Type) where
  | ret (value : α)
  | throw (failure : σ.Err)
  | call (op : σ.Op) (next : Except σ.Err (σ.Ret op) → Prog σ α)

namespace Prog
variable {σ : Signature} {α β γ : Type}

def bind : Prog σ α → (α → Prog σ β) → Prog σ β
  | ret value, f => f value
  | throw failure, _ => throw failure
  | call op next, f => call op fun answer => (next answer).bind f

instance : Monad (Prog σ) where
  pure := ret
  bind := bind

/-- Run a program and hand its outcome on, as a `match` on a result does. -/
def attempt : Prog σ α → Prog σ (Except σ.Err α)
  | ret value => ret (.ok value)
  | throw failure => ret (.error failure)
  | call op next => call op fun answer => (next answer).attempt

/-- Ask for one operation and give up on an error, as the `?` operator does. -/
def ask (op : σ.Op) : Prog σ (σ.Ret op) :=
  call op fun
    | .ok value => ret value
    | .error failure => throw failure

/-- Ask for one operation whatever its answer is. -/
def tell (op : σ.Op) : Prog σ Unit := call op fun _ => ret ()

/-- A missing value is an error. -/
def orThrow (value : Option α) (failure : σ.Err) : Prog σ α :=
  match value with
  | some value => ret value
  | none => throw failure

def ofExcept : Except σ.Err α → Prog σ α
  | .ok value => ret value
  | .error failure => throw failure

/-- An `if` without an `else`. -/
def onlyIf (condition : Bool) (p : Prog σ Unit) : Prog σ Unit := if condition then p else ret ()

/-- A `for` loop: one round for each item, left by the first error. -/
def forEach (items : List β) (round : β → Prog σ Unit) : Prog σ Unit :=
  items.foldlM (fun _ item => round item) ()

@[simp] theorem pure_eq (value : α) : (pure value : Prog σ α) = ret value := rfl
@[simp] theorem bind_eq (p : Prog σ α) (f : α → Prog σ β) : p >>= f = p.bind f := rfl
@[simp] theorem ret_bind (value : α) (f : α → Prog σ β) : (ret value).bind f = f value := rfl
@[simp] theorem throw_bind (failure : σ.Err) (f : α → Prog σ β) :
    (throw failure).bind f = throw failure := rfl
@[simp] theorem call_bind (op : σ.Op) (next : Except σ.Err (σ.Ret op) → Prog σ α)
    (f : α → Prog σ β) : (call op next).bind f = call op fun answer => (next answer).bind f := rfl

theorem bind_assoc (p : Prog σ α) (f : α → Prog σ β) (g : β → Prog σ γ) :
    (p.bind f).bind g = p.bind fun value => (f value).bind g := by
  induction p with
  | ret value => rfl
  | throw failure => rfl
  | call op next ih =>
      simp only [call_bind]
      congr 1
      funext answer
      exact ih answer

theorem bind_eq_ret {p : Prog σ α} {f : α → Prog σ β} {value : β} :
    p.bind f = ret value ↔ ∃ first, p = ret first ∧ f first = ret value := by
  cases p with
  | ret first => simp
  | throw failure => simp
  | call op next => simp

end Prog

/-! ## Answers and runs -/

inductive Fault (ε : Type) where
  | none
  | lost (failure : ε)
  | late (failure : ε)
deriving DecidableEq, Repr

/-- Whether a fallible call with the fault has its effect. -/
def Fault.reaches {ε : Type} : Fault ε → Bool
  | lost _ => false
  | _ => true

structure Handler (σ : Signature) (S : Type) where
  exec : (op : σ.Op) → S → Except σ.Err (σ.Ret op) × S
  total : ∀ op s, σ.fallible op = false → ∃ value, (exec op s).1 = .ok value

namespace Handler
variable {σ : Signature} {S : Type}

def answer (h : Handler σ S) (fault : Fault σ.Err) (op : σ.Op) (s : S) :
    Except σ.Err (σ.Ret op) × S :=
  match σ.fallible op, fault with
  | true, .lost failure => (.error failure, s)
  | true, .late failure => (.error failure, (h.exec op s).2)
  | _, _ => h.exec op s

@[simp] theorem answer_none (h : Handler σ S) (op : σ.Op) (s : S) :
    h.answer .none op s = h.exec op s := by
  unfold answer
  split <;> simp_all

theorem answer_state (h : Handler σ S) (fault : Fault σ.Err) (op : σ.Op) (s : S) :
    (h.answer fault op s).2 = s ∨ (h.answer fault op s).2 = (h.exec op s).2 := by
  unfold answer
  split
  · exact Or.inl rfl
  · exact Or.inr rfl
  · exact Or.inr rfl

theorem answer_reaches {h : Handler σ S} {fault : Fault σ.Err} (op : σ.Op) (s : S)
    (reaches : fault.reaches = true) : (h.answer fault op s).2 = (h.exec op s).2 := by
  unfold answer
  split
  · cases reaches
  · rfl
  · rfl

theorem answer_lost {h : Handler σ S} {fault : Fault σ.Err} {op : σ.Op} (s : S)
    (fallible : σ.fallible op = true) (lost : fault.reaches = false) :
    (h.answer fault op s).2 = s := by
  cases fault with
  | lost failure => simp [answer, fallible]
  | none => cases lost
  | late failure => cases lost

theorem answer_ok {h : Handler σ S} {fault : Fault σ.Err} {op : σ.Op} {s : S} {value : σ.Ret op}
    (ok : (h.answer fault op s).1 = .ok value) : h.answer fault op s = h.exec op s := by
  unfold answer at ok ⊢
  split <;> simp_all

theorem answer_ok_reaches {h : Handler σ S} {fault : Fault σ.Err} {op : σ.Op} {s : S}
    {value : σ.Ret op} (fallible : σ.fallible op = true)
    (ok : (h.answer fault op s).1 = .ok value) : fault.reaches = true := by
  cases fault with
  | lost failure => simp [answer, fallible] at ok
  | none => rfl
  | late failure => rfl

theorem answer_total (h : Handler σ S) (fault : Fault σ.Err) (op : σ.Op) (s : S)
    (infallible : σ.fallible op = false) : ∃ value, (h.answer fault op s).1 = .ok value := by
  unfold answer
  rw [infallible]
  exact h.total op s infallible

end Handler

namespace Prog
variable {σ : Signature} {S α β : Type} (h : Handler σ S)

/-- Run a program to its end, the calls failing as the list of faults says. -/
def run (faults : List (Fault σ.Err)) : Prog σ α → S → Except σ.Err α × S
  | ret value, s => (.ok value, s)
  | throw failure, s => (.error failure, s)
  | call op next, s =>
      let reply := h.answer (faults.headD .none) op s
      (next reply.1).run faults.tail reply.2

/-- Run a program to its end without faults. -/
def eval : Prog σ α → S → Except σ.Err α × S
  | ret value, s => (.ok value, s)
  | throw failure, s => (.error failure, s)
  | call op next, s =>
      let reply := h.exec op s
      (next reply.1).eval reply.2

theorem run_nil (p : Prog σ α) (s : S) : p.run h [] s = p.eval h s := by
  induction p generalizing s with
  | ret value => rfl
  | throw failure => rfl
  | call op next ih =>
      simp only [run, eval, List.headD_nil, List.tail_nil, Handler.answer_none]
      exact ih _ _

/-! ## What every run of a program ensures -/

/-- Every run whose faults are all allowed ends with a value and a state that satisfy `ok`, or
with an error and a state that satisfy `failed`. -/
def Ensures (allowed : Fault σ.Err → Prop) (ok : α → S → Prop) (failed : σ.Err → S → Prop) :
    Prog σ α → S → Prop
  | ret value, s => ok value s
  | throw failure, s => failed failure s
  | call op next, s => ∀ fault, allowed fault →
      Ensures allowed ok failed (next (h.answer fault op s).1) (h.answer fault op s).2

/-- Any call may fail. -/
def anyFault (ε : Type) : Fault ε → Prop := fun _ => True

/-- No call fails by itself. -/
def noFault (ε : Type) : Fault ε → Prop := fun fault => fault = .none

variable {h} {allowed : Fault σ.Err → Prop} {ok ok' : α → S → Prop} {failed failed' : σ.Err → S → Prop}

theorem Ensures.run {p : Prog σ α} {s : S} (ensures : p.Ensures h allowed ok failed s)
    (faults : List (Fault σ.Err)) (permitted : ∀ fault ∈ faults, allowed fault)
    (none : allowed .none) :
    (∀ value, (p.run h faults s).1 = .ok value → ok value (p.run h faults s).2) ∧
      ∀ failure, (p.run h faults s).1 = .error failure → failed failure (p.run h faults s).2 := by
  induction p generalizing s faults with
  | ret value =>
      refine ⟨fun value' eq => ?_, fun failure eq => ?_⟩ <;> cases eq
      exact ensures
  | throw failure =>
      refine ⟨fun value eq => ?_, fun failure' eq => ?_⟩ <;> cases eq
      exact ensures
  | call op next ih =>
      refine ih _ (ensures (faults.headD .none) ?_) faults.tail ?_
      · cases faults with
        | nil => exact none
        | cons fault rest => exact permitted fault (List.mem_cons_self ..)
      · exact fun fault member => permitted fault (List.mem_of_mem_tail member)

theorem Ensures.eval {p : Prog σ α} {s : S} (ensures : p.Ensures h (noFault σ.Err) ok failed s) :
    (∀ value, (p.eval h s).1 = .ok value → ok value (p.eval h s).2) ∧
      ∀ failure, (p.eval h s).1 = .error failure → failed failure (p.eval h s).2 := by
  rw [← run_nil]
  exact ensures.run [] (by simp) rfl

theorem Ensures.mono {p : Prog σ α} {s : S} (ensures : p.Ensures h allowed ok failed s)
    (onOk : ∀ value s', ok value s' → ok' value s')
    (onError : ∀ failure s', failed failure s' → failed' failure s') :
    p.Ensures h allowed ok' failed' s := by
  induction p generalizing s with
  | ret value => exact onOk _ _ ensures
  | throw failure => exact onError _ _ ensures
  | call op next ih => exact fun fault permitted => ih _ (ensures fault permitted)

theorem ensures_bind {p : Prog σ α} {f : α → Prog σ β} {s : S} {ok : β → S → Prop} :
    (p.bind f).Ensures h allowed ok failed s ↔
      p.Ensures h allowed (fun value s' => (f value).Ensures h allowed ok failed s') failed s := by
  induction p generalizing s with
  | ret value => rfl
  | throw failure => rfl
  | call op next ih => exact forall_congr' fun fault => imp_congr_right fun _ => ih _

theorem ensures_ask {op : σ.Op} {s : S} {ok : σ.Ret op → S → Prop}
    (success : ∀ value, (h.exec op s).1 = .ok value → ok value (h.exec op s).2)
    (refused : ∀ failure, (h.exec op s).1 = .error failure → failed failure (h.exec op s).2)
    (lost : ∀ failure, allowed (.lost failure) → failed failure s)
    (late : ∀ failure, allowed (.late failure) → failed failure (h.exec op s).2) :
    (ask op).Ensures h allowed ok failed s := by
  intro fault permitted
  have direct : ∀ reply, reply = h.exec op s → Ensures h allowed ok failed
      (match (motive := _ → Prog σ (σ.Ret op)) reply.1 with
        | .ok value => ret value
        | .error failure => throw failure) reply.2 := by
    rintro reply rfl
    cases outcome : (h.exec op s).1 with
    | ok value => exact success value outcome
    | error failure => exact refused failure outcome
  unfold Handler.answer
  split
  · exact lost _ permitted
  · exact late _ permitted
  · exact direct _ rfl

theorem ensures_ofExcept {outcome : Except σ.Err α} {s : S} (success : ∀ value, outcome = .ok value → ok value s)
    (failure : ∀ err, outcome = .error err → failed err s) :
    (ofExcept outcome).Ensures h allowed ok failed s := by
  cases outcome with
  | ok value => exact success value rfl
  | error err => exact failure err rfl

theorem ensures_orThrow {value : Option α} {err : σ.Err} {s : S}
    (success : ∀ v, value = some v → ok v s) (failure : value = none → failed err s) :
    (orThrow value err).Ensures h allowed ok failed s := by
  cases value with
  | some v => exact success v rfl
  | none => exact failure rfl

theorem ensures_ran (p : Prog σ α) (s : S) :
    p.Ensures h allowed (fun value s' => ∃ faults, p.run h faults s = (.ok value, s'))
      (fun failure s' => ∃ faults, p.run h faults s = (.error failure, s')) s := by
  induction p generalizing s with
  | ret value => exact ⟨[], rfl⟩
  | throw failure => exact ⟨[], rfl⟩
  | call op next ih =>
      intro fault _
      refine (ih _ _).mono ?_ ?_
      · rintro value s' ⟨faults, ran⟩
        exact ⟨fault :: faults, ran⟩
      · rintro failure s' ⟨faults, ran⟩
        exact ⟨fault :: faults, ran⟩

/-- The loop rule: what each round keeps holds after the loop; an error of a round leaves it. -/
theorem ensures_foldlM {items : List β} {f : α → β → Prog σ α} {init : α} {s : S}
    (inv : List β → List β → α → S → Prop) (start : inv [] items init s)
    (round : ∀ done item rest acc s, items = done ++ item :: rest → inv done (item :: rest) acc s →
      (f acc item).Ensures h allowed (inv (done ++ [item]) rest) failed s) :
    (items.foldlM f init).Ensures h allowed (inv items []) failed s := by
  suffices general : ∀ rest done acc s, items = done ++ rest → inv done rest acc s →
      (rest.foldlM f acc).Ensures h allowed (inv items []) failed s from
    general items [] init s rfl start
  intro rest
  induction rest with
  | nil =>
      intro done acc s split holds
      simp only [List.append_nil] at split
      subst split
      exact holds
  | cons item rest ih =>
      intro done acc s split holds
      rw [List.foldlM_cons, bind_eq, ensures_bind]
      exact (round done item rest acc s split holds).mono
        (fun acc' s' next => ih (done ++ [item]) acc' s' (by simpa using split) next)
        (fun _ _ failure => failure)

theorem ensures_forEach {items : List β} {f : β → Prog σ Unit} {s : S}
    (inv : List β → List β → S → Prop) (start : inv [] items s)
    (round : ∀ done item rest s, items = done ++ item :: rest → inv done (item :: rest) s →
      (f item).Ensures h allowed (fun _ => inv (done ++ [item]) rest) failed s) :
    (forEach items f).Ensures h allowed (fun _ => inv items []) failed s :=
  ensures_foldlM (fun done rest _ => inv done rest) start
    fun done item rest _ s => round done item rest s

/-! ## The operations a program uses -/

/-- Every operation that a program may ask for is permitted. -/
def Uses (permitted : σ.Op → Prop) : Prog σ α → Prop
  | ret _ => True
  | throw _ => True
  | call op next => permitted op ∧ ∀ answer, (next answer).Uses permitted

variable {permitted permitted' : σ.Op → Prop}

theorem Uses.mono {p : Prog σ α} (uses : p.Uses permitted)
    (implies : ∀ op, permitted op → permitted' op) : p.Uses permitted' := by
  induction p with
  | ret value => trivial
  | throw failure => trivial
  | call op next ih => exact ⟨implies op uses.1, fun answer => ih answer (uses.2 answer)⟩

theorem Uses.bind {p : Prog σ α} {f : α → Prog σ β} (first : p.Uses permitted)
    (rest : ∀ value, (f value).Uses permitted) : (p.bind f).Uses permitted := by
  induction p with
  | ret value => exact rest value
  | throw failure => trivial
  | call op next ih => exact ⟨first.1, fun answer => ih answer (first.2 answer)⟩

theorem Uses.attempt {p : Prog σ α} (uses : p.Uses permitted) : p.attempt.Uses permitted := by
  induction p with
  | ret value => trivial
  | throw failure => trivial
  | call op next ih => exact ⟨uses.1, fun answer => ih answer (uses.2 answer)⟩

theorem Uses.ask {op : σ.Op} (holds : permitted op) : (ask op).Uses permitted := by
  refine ⟨holds, fun answer => ?_⟩
  cases answer <;> trivial

theorem Uses.tell {op : σ.Op} (holds : permitted op) : (tell op).Uses permitted :=
  ⟨holds, fun _ => trivial⟩

theorem Uses.orThrow (value : Option α) (failure : σ.Err) :
    (orThrow value failure : Prog σ α).Uses permitted := by
  cases value <;> trivial

theorem Uses.ofExcept (outcome : Except σ.Err α) :
    (ofExcept outcome : Prog σ α).Uses permitted := by
  cases outcome <;> trivial

theorem Uses.onlyIf {condition : Bool} {p : Prog σ Unit}
    (uses : condition = true → p.Uses permitted) : (onlyIf condition p).Uses permitted := by
  unfold Prog.onlyIf
  split
  · exact uses ‹_›
  · trivial

theorem Uses.foldlM {items : List β} {f : α → β → Prog σ α} (init : α)
    (round : ∀ acc, ∀ item ∈ items, (f acc item).Uses permitted) :
    (items.foldlM f init).Uses permitted := by
  induction items generalizing init with
  | nil => trivial
  | cons item rest ih =>
      rw [List.foldlM_cons, bind_eq]
      exact (round init item (List.mem_cons_self ..)).bind fun acc =>
        ih acc fun acc item member => round acc item (List.mem_cons_of_mem _ member)

theorem Uses.forEach {items : List β} {f : β → Prog σ Unit}
    (round : ∀ item ∈ items, (f item).Uses permitted) : (forEach items f).Uses permitted :=
  Uses.foldlM () fun _ => round

/-- The program asks for one operation, gives up if that fails, and goes on with permitted ones. -/
def Leads (op : σ.Op) (permitted : σ.Op → Prop) (p : Prog σ α) : Prop :=
  ∃ f : σ.Ret op → Prog σ α, p = (ask op).bind f ∧ ∀ value, (f value).Uses permitted

theorem Leads.uses {op : σ.Op} {p : Prog σ α} (leads : p.Leads op permitted) (holds : permitted op) :
    p.Uses permitted := by
  obtain ⟨f, rfl, rest⟩ := leads
  exact (Uses.ask holds).bind rest

/-- A property of the state that every operation of a program keeps holds after each run of it. -/
theorem Uses.ensures {p : Prog σ α} {inv : S → Prop} (uses : p.Uses permitted)
    (keeps : ∀ op s, permitted op → inv s → inv (h.exec op s).2) {s : S} (holds : inv s) :
    p.Ensures h allowed (fun _ => inv) (fun _ => inv) s := by
  induction p generalizing s with
  | ret value => exact holds
  | throw failure => exact holds
  | call op next ih =>
      intro fault _
      refine ih _ (uses.2 _) ?_
      rcases h.answer_state fault op s with eq | eq <;> rw [eq]
      · exact holds
      · exact keeps op s uses.1 holds

/-- Where the first operation fails nothing or everything of it has happened; the rest keeps what
holds before it or after it. -/
theorem Leads.ensures {op : σ.Op} {p : Prog σ α} (leads : p.Leads op permitted) {s : S}
    {before after : S → Prop} (start : before s)
    (effect : after (h.exec op s).2 ∨ before (h.exec op s).2 ∧ ∃ failure, (h.exec op s).1 = .error failure)
    (keeps : ∀ op s, permitted op → after s → after (h.exec op s).2) :
    p.Ensures h allowed (fun _ => after) (fun _ s' => before s' ∨ after s') s := by
  obtain ⟨f, rfl, rest⟩ := leads
  rw [ensures_bind]
  apply ensures_ask
  · intro value ok
    rcases effect with holds | ⟨-, failure, error⟩
    · exact ((rest value).ensures keeps holds).mono (fun _ _ => id) fun _ _ => Or.inr
    · rw [ok] at error
      cases error
  · intro failure _
    exact effect.symm.imp And.left id
  · exact fun failure _ => Or.inl start
  · exact fun failure _ => effect.symm.imp And.left id

/-! ## What a program ends with, whatever it is answered -/

/-- Every run in which each call is answered as it can be ends with an outcome that satisfies
`post`. -/
def Yields (possible : (op : σ.Op) → Except σ.Err (σ.Ret op) → Prop) (post : Except σ.Err α → Prop) :
    Prog σ α → Prop
  | ret value => post (.ok value)
  | throw failure => post (.error failure)
  | call op next => ∀ answer, possible op answer → (next answer).Yields possible post

section Yields
variable {possible : (op : σ.Op) → Except σ.Err (σ.Ret op) → Prop} {post post' : Except σ.Err α → Prop}

theorem Yields.mono {p : Prog σ α} (yields : p.Yields possible post)
    (implies : ∀ outcome, post outcome → post' outcome) : p.Yields possible post' := by
  induction p with
  | ret value => exact implies _ yields
  | throw failure => exact implies _ yields
  | call op next ih => exact fun answer can => ih answer (yields answer can)

theorem yields_bind {p : Prog σ α} {f : α → Prog σ β} {post : Except σ.Err β → Prop}
    (yields : p.Yields possible fun
      | .ok value => (f value).Yields possible post
      | .error failure => post (.error failure)) : (p.bind f).Yields possible post := by
  induction p with
  | ret value => exact yields
  | throw failure => exact yields
  | call op next ih => exact fun answer can => ih answer (yields answer can)

/-- Only errors that are allowed come out of a program. -/
def Raises (possible : (op : σ.Op) → Except σ.Err (σ.Ret op) → Prop) (allowed : σ.Err → Prop)
    (p : Prog σ α) : Prop :=
  p.Yields possible fun
    | .ok _ => True
    | .error failure => allowed failure

variable {raised : σ.Err → Prop}

theorem Raises.bind {p : Prog σ α} {f : α → Prog σ β} (raises : p.Raises possible raised)
    (rest : ∀ value, (f value).Raises possible raised) : (p.bind f).Raises possible raised := by
  refine yields_bind (raises.mono fun outcome holds => ?_)
  cases outcome with
  | ok value => exact rest value
  | error failure => exact holds

theorem Raises.ask {op : σ.Op} (errors : ∀ failure, possible op (.error failure) → raised failure) :
    (ask op).Raises possible raised := by
  intro answer can
  cases answer with
  | ok value => trivial
  | error failure => exact errors failure can

theorem Raises.tell (op : σ.Op) : (tell op).Raises possible raised := fun _ _ => trivial

theorem Raises.orThrow {failure : σ.Err} (holds : raised failure) (value : Option α) :
    (orThrow value failure).Raises possible raised := by
  cases value with
  | some value => trivial
  | none => exact holds

theorem Raises.onlyIf {condition : Bool} {p : Prog σ Unit} (raises : p.Raises possible raised) :
    (onlyIf condition p).Raises possible raised := by
  unfold Prog.onlyIf
  split
  · exact raises
  · trivial

theorem Raises.foldlM {items : List β} {f : α → β → Prog σ α} (init : α)
    (round : ∀ acc item, (f acc item).Raises possible raised) :
    (items.foldlM f init).Raises possible raised := by
  induction items generalizing init with
  | nil => trivial
  | cons item rest ih =>
      rw [List.foldlM_cons, bind_eq]
      exact (round init item).bind ih

theorem Raises.forEach {items : List β} {f : β → Prog σ Unit}
    (round : ∀ item, (f item).Raises possible raised) : (forEach items f).Raises possible raised :=
  Raises.foldlM () fun _ => round

theorem Raises.yields_bind {p : Prog σ α} {f : α → Prog σ β} {post : Except σ.Err β → Prop}
    (raises : p.Raises possible raised) (error : ∀ failure, raised failure → post (.error failure))
    (rest : ∀ value, (f value).Yields possible post) : (p.bind f).Yields possible post := by
  refine Prog.yields_bind (raises.mono fun outcome holds => ?_)
  cases outcome with
  | ok value => exact rest value
  | error failure => exact error failure holds

theorem Yields.ensures {p : Prog σ α} (yields : p.Yields possible post)
    (answers : ∀ fault, allowed fault → ∀ op s, possible op (h.answer fault op s).1) (s : S) :
    p.Ensures h allowed (fun value _ => post (.ok value)) (fun failure _ => post (.error failure)) s := by
  induction p generalizing s with
  | ret value => exact yields
  | throw failure => exact yields
  | call op next ih =>
      exact fun fault permitted => ih _ (yields _ (answers fault permitted op s)) _

end Yields

/-- Every value that a run returns satisfies `post`, whatever its calls are answered. -/
def Returns (post : α → Prop) (p : Prog σ α) : Prop :=
  p.Yields (fun _ _ => True) fun
    | .ok value => post value
    | .error _ => True

section Returns
variable {post : α → Prop}

theorem returns_any (p : Prog σ α) : p.Returns fun _ => True := by
  induction p with
  | ret value => trivial
  | throw failure => trivial
  | call op next ih => exact fun answer _ => ih answer

theorem Returns.bind {p : Prog σ α} {f : α → Prog σ β} {post' : β → Prop} (returns : p.Returns post)
    (rest : ∀ value, post value → (f value).Returns post') : (p.bind f).Returns post' := by
  refine yields_bind (Yields.mono returns fun outcome holds => ?_)
  cases outcome with
  | ok value => exact rest value holds
  | error failure => trivial

theorem Returns.mono {p : Prog σ α} {post' : α → Prop} (returns : p.Returns post)
    (implies : ∀ value, post value → post' value) : p.Returns post' := by
  refine Yields.mono returns fun outcome holds => ?_
  cases outcome with
  | ok value => exact implies value holds
  | error failure => trivial

/-- The loop rule for what a loop carries and the items that it is through with. -/
theorem returns_foldlM {items : List β} {f : α → β → Prog σ α} {init : α}
    (inv : List β → α → Prop) (start : inv [] init)
    (round : ∀ done item acc, inv done acc → (f acc item).Returns (inv (done ++ [item]))) :
    (items.foldlM f init).Returns (inv items) := by
  suffices general : ∀ (rest done : List β) acc, inv done acc →
      (rest.foldlM f acc).Returns (inv (done ++ rest)) from general items [] init start
  intro rest
  induction rest with
  | nil =>
      intro done acc holds
      rw [List.append_nil]
      exact holds
  | cons item rest ih =>
      intro done acc holds
      rw [List.foldlM_cons, bind_eq]
      refine (round done item acc holds).bind fun value next => ?_
      have through := ih (done ++ [item]) value next
      rwa [List.append_assoc, List.singleton_append] at through

theorem Returns.ensures {p : Prog σ α} (returns : p.Returns post) {h : Handler σ S}
    {allowed : Fault σ.Err → Prop} (s : S) :
    p.Ensures h allowed (fun value _ => post value) (fun _ _ => True) s :=
  Yields.ensures returns (fun _ _ _ _ => trivial) s

theorem Returns.run {p : Prog σ α} (returns : p.Returns post) {h : Handler σ S}
    {faults : List (Fault σ.Err)} {s : S} {value : α} (ended : (p.run h faults s).1 = .ok value) :
    post value := by
  have ensures : p.Ensures h (anyFault σ.Err) (fun value _ => post value) (fun _ _ => True) s :=
    returns.ensures s
  exact (ensures.run faults (fun _ _ => trivial) trivial).1 value ended

end Returns

end Prog

/-! ## Records of a run -/

namespace Handler
variable {σ : Signature} {S G : Type}

/-- The handler over a state that carries a record of the operations that have had their effect. -/
def track (h : Handler σ S) (note : σ.Op → S → G → G) : Handler σ (S × G) where
  exec op s := ((h.exec op s.1).1, (h.exec op s.1).2, note op s.1 s.2)
  total op s infallible := h.total op s.1 infallible

variable (h : Handler σ S) (note : σ.Op → S → G → G)

@[simp] theorem track_exec (op : σ.Op) (s : S × G) :
    (h.track note).exec op s = ((h.exec op s.1).1, (h.exec op s.1).2, note op s.1 s.2) := rfl

theorem track_answer (fault : Fault σ.Err) (op : σ.Op) (s : S × G) :
    ((h.track note).answer fault op s).1 = (h.answer fault op s.1).1 ∧
      ((h.track note).answer fault op s).2.1 = (h.answer fault op s.1).2 := by
  unfold answer
  split <;> exact ⟨rfl, rfl⟩

end Handler

namespace Prog
variable {σ : Signature} {S G α β : Type} {h : Handler σ S}

theorem run_track (h : Handler σ S) (note : σ.Op → S → G → G) (p : Prog σ α)
    (faults : List (Fault σ.Err)) (s : S × G) :
    (p.run (h.track note) faults s).1 = (p.run h faults s.1).1 ∧
      (p.run (h.track note) faults s).2.1 = (p.run h faults s.1).2 := by
  induction p generalizing s faults with
  | ret value => exact ⟨rfl, rfl⟩
  | throw failure => exact ⟨rfl, rfl⟩
  | call op next ih =>
      obtain ⟨answered, state⟩ := h.track_answer note (faults.headD .none) op s
      simp only [run, answered, ← state]
      exact ih _ _ _

/-- What the record of a run says in its end. -/
def record (h : Handler σ S) (note : σ.Op → S → G → G) (p : Prog σ α) (faults : List (Fault σ.Err))
    (s : S) (empty : G) : G :=
  (p.run (h.track note) faults (s, empty)).2.2

/-- What every run with its record ensures, for the run itself. -/
theorem Ensures.record {note : σ.Op → S → G → G} {p : Prog σ α} {s : S} {empty : G}
    {inv : S → G → Prop}
    (ensures : p.Ensures (h.track note) (anyFault σ.Err) (fun _ s => inv s.1 s.2)
      (fun _ s => inv s.1 s.2) (s, empty)) (faults : List (Fault σ.Err)) :
    inv (p.run h faults s).2 (p.record h note faults s empty) := by
  obtain ⟨answered, state⟩ := run_track h note p faults (s, empty)
  obtain ⟨ok, failed⟩ := ensures.run faults (fun _ _ => trivial) trivial
  rw [← state]
  cases outcome : (p.run (h.track note) faults (s, empty)).1 with
  | ok value => exact ok value outcome
  | error failure => exact failed failure outcome

/-! ## Runs without faults -/

variable {allowed : Fault σ.Err → Prop} {ok ok' : α → S → Prop} {failed failed' : σ.Err → S → Prop}
  {permitted permitted' : σ.Op → Prop}

theorem eval_bind (h : Handler σ S) (p : Prog σ α) (f : α → Prog σ β) (s : S) :
    (p.bind f).eval h s = match p.eval h s with
      | (.ok value, s') => (f value).eval h s'
      | (.error failure, s') => (.error failure, s') := by
  induction p generalizing s with
  | ret value => rfl
  | throw failure => rfl
  | call op next ih =>
      simp only [call_bind, eval]
      exact ih _ _

@[simp] theorem eval_ask (h : Handler σ S) (op : σ.Op) (s : S) : (ask op).eval h s = h.exec op s := by
  rcases outcome : h.exec op s with ⟨answer, s'⟩
  simp only [ask, eval, outcome]
  cases answer <;> rfl

/-- The run of a program asks for no operation in a state in which it is bad. -/
def Avoids (h : Handler σ S) (bad : σ.Op → S → Prop) : Prog σ α → S → Prop
  | ret _, _ => True
  | throw _, _ => True
  | call op next, s => ¬ bad op s ∧ (next (h.exec op s).1).Avoids h bad (h.exec op s).2

variable {bad : σ.Op → S → Prop}

theorem avoids_bind {p : Prog σ α} {f : α → Prog σ β} {s : S} :
    (p.bind f).Avoids h bad s ↔ p.Avoids h bad s ∧
      ∀ value s', p.eval h s = (.ok value, s') → (f value).Avoids h bad s' := by
  induction p generalizing s with
  | ret value =>
      simp only [ret_bind, Avoids, eval, true_and, Prod.mk.injEq, Except.ok.injEq, and_imp]
      exact ⟨fun avoids _ _ eq eq' => eq ▸ eq' ▸ avoids, fun avoids => avoids value s rfl rfl⟩
  | throw failure => simp [Avoids, eval]
  | call op next ih => simp only [call_bind, Avoids, eval, ih, and_assoc]

theorem Uses.avoids {p : Prog σ α} (uses : p.Uses permitted)
    (harmless : ∀ op s, permitted op → ¬ bad op s) (s : S) : p.Avoids h bad s := by
  induction p generalizing s with
  | ret value => trivial
  | throw failure => trivial
  | call op next ih => exact ⟨harmless op s uses.1, ih _ (uses.2 _) _⟩

/-- The run of a program avoids everything bad if the condition holds, and it completes only if the
condition holds; what it completes with satisfies `ok`. -/
structure Requires (h : Handler σ S) (bad : σ.Op → S → Prop) (condition : Prop) (ok : α → S → Prop)
    (p : Prog σ α) (s : S) : Prop where
  avoids : condition → p.Avoids h bad s
  completes : ∀ value s', p.eval h s = (.ok value, s') → condition ∧ ok value s'

theorem Requires.mono {p : Prog σ α} {s : S} {condition condition' : Prop}
    (requires : p.Requires h bad condition ok s) (same : condition ↔ condition')
    (implies : ∀ value s', condition → ok value s' → ok' value s') :
    p.Requires h bad condition' ok' s where
  avoids holds := requires.avoids (same.mpr holds)
  completes value s' eq := by
    obtain ⟨holds, post⟩ := requires.completes value s' eq
    exact ⟨same.mp holds, implies value s' holds post⟩

theorem Requires.bind {p : Prog σ α} {f : α → Prog σ β} {s : S} {first second : Prop}
    {okFirst : α → S → Prop} {ok : β → S → Prop} (requires : p.Requires h bad first okFirst s)
    (rest : ∀ value s', okFirst value s' → (f value).Requires h bad second ok s') :
    (p.bind f).Requires h bad (first ∧ second) ok s where
  avoids holds := by
    refine avoids_bind.mpr ⟨requires.avoids holds.1, fun value s' eq => ?_⟩
    exact (rest value s' (requires.completes value s' eq).2).avoids holds.2
  completes value s' eq := by
    rw [eval_bind] at eq
    split at eq
    · rename_i value' s₁ eq'
      obtain ⟨holds, post⟩ := requires.completes value' s₁ eq'
      obtain ⟨holds', post'⟩ := (rest value' s₁ post).completes value s' eq
      exact ⟨⟨holds, holds'⟩, post'⟩
    · cases eq

theorem Uses.requires {p : Prog σ α} (uses : p.Uses permitted)
    (harmless : ∀ op s, permitted op → ¬ bad op s) {s : S}
    (ensures : p.Ensures h (anyFault σ.Err) ok failed s) : p.Requires h bad True ok s where
  avoids _ := uses.avoids harmless s
  completes value s' eq := by
    have post := (ensures.run [] (by simp) trivial).1 value
    rw [run_nil, eq] at post
    exact ⟨trivial, post rfl⟩

end Prog
end ImapCache.Lib
