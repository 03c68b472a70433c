import ImapCache.Model.IdleLoop
import ImapCache.Model.Sample
import ImapCache.Proof.CommandStream
import ImapCache.Proof.ExpungeReplay
import ImapCache.Proof.RawFetchDispatch

/-!
# What an IDLE reads

However the bytes of a client are cut into chunks, and whenever the read of the loop is polled, the
loop ends with the line that says DONE, and the bytes behind that line are left for the next command,
as long as no event is handled while a part of a line has been read.
-/

namespace ImapCache.IdleReads
open Lib Prog Session CommandStream

/-! ## Lines -/

def lineFeed : UInt8 := 0x0A

def IsLine (line : Bytes) : Prop := ∃ text, lineFeed ∉ text ∧ line = text ++ [lineFeed]

/-- The line is one of those that the loop reads over. -/
def Skipped (line : Bytes) : Prop := IsLine line ∧ ∃ text, fromUtf8 line = some text ∧ isDone text = false

def SaysDone (line : Bytes) : Prop := IsLine line ∧ ∃ text, fromUtf8 line = some text ∧ isDone text = true

theorem line_unique {line line' rest rest' : Bytes} (isLine : IsLine line) (isLine' : IsLine line')
    (same : line ++ rest = line' ++ rest') : line = line' ∧ rest = rest' := by
  obtain ⟨text, clean, rfl⟩ := isLine
  obtain ⟨text', clean', rfl⟩ := isLine'
  rw [List.append_assoc, List.append_assoc] at same
  have first := readLine_append clean rest
  have second := readLine_append clean' rest'
  have read : readLine (text ++ lineFeed :: rest) = readLine (text' ++ lineFeed :: rest') := by
    exact congrArg readLine same
  have both := first.symm.trans (read.trans second)
  exact Prod.mk.inj both

theorem readLine_clean {bytes : Bytes} (clean : lineFeed ∉ bytes) : readLine bytes = (bytes, []) := by
  induction bytes with
  | nil => rfl
  | cons byte bytes ih =>
      have other : byte ≠ 0x0A := fun eq => clean (eq ▸ List.mem_cons_self)
      rw [readLine, if_neg other, ih fun member => clean (List.mem_cons_of_mem _ member)]

/-! ## Polls -/

theorem poll_line {stream : IdleStream} {text rest : Bytes} (clean : lineFeed ∉ text)
    (unread : stream.unread = text ++ lineFeed :: rest) :
    stream.poll = (some (stream.taken ++ text ++ [lineFeed]), ⟨rest, [], stream.ended⟩) := by
  have read : readLine stream.unread = (text ++ [lineFeed], rest) := by
    rw [unread]
    exact readLine_append clean rest
  unfold IdleStream.poll
  rw [read]
  dsimp only
  rw [if_pos (Or.inl (by simp [lineFeed])), List.append_assoc]

theorem poll_pending {stream : IdleStream} (clean : lineFeed ∉ stream.unread) (open' : stream.ended = false) :
    stream.poll = (none, ⟨[], stream.taken ++ stream.unread, false⟩) := by
  unfold IdleStream.poll
  rw [readLine_clean clean]
  dsimp only
  rw [if_neg, open']
  rintro (last | ended)
  · exact clean (List.mem_of_getLast? last)
  · rw [open'] at ended
    cases ended

/-! ## Runs -/

def arrivals : List Moment → Bytes
  | [] => []
  | .arrive chunk :: moments => chunk ++ arrivals moments
  | _ :: moments => arrivals moments

/-- Up to the line that says DONE, no event is handled while a part of a line has been read, the time
is not up and the events are not closed; after its end the stream has nothing more. -/
def Undisturbed : IdleStream → List Moment → Prop
  | _, [] => True
  | stream, .arrive chunk :: moments => Undisturbed (stream.arrive chunk) moments
  | stream, .eof :: moments => arrivals moments = [] ∧ Undisturbed { stream with ended := true } moments
  | stream, .poll :: moments =>
      match stream.poll with
      | (some line, stream) => SaysDone line ∨ Undisturbed stream moments
      | (none, stream) => Undisturbed stream moments
  | stream, .event _ :: moments => stream.taken = [] ∧ Undisturbed stream moments
  | stream, .lagged :: moments => stream.taken = [] ∧ Undisturbed stream moments
  | _, .timeout :: _ => False
  | _, .closed :: _ => False

/-- The loop has ended with DONE, and the bytes that are left are those of the next command. -/
def Recognised (tag : String) (next : Bytes) (idled : Idled) : Prop :=
  idled.outcome = .terminated ∧ idled.lines.getLast? = some (Commands.ok tag "IDLE terminated") ∧
    idled.stream.taken = [] ∧ idled.stream.unread ++ arrivals idled.later = next

/-- Bytes that have arrived or will: lines to read over, a line that says DONE and those of the next
command. -/
structure Sent (stream : IdleStream) (moments : List Moment) (lines : List Bytes) (done next : Bytes) : Prop where
  clean : lineFeed ∉ stream.taken
  ended : stream.ended = true → arrivals moments = []
  bytes : stream.taken ++ stream.unread ++ arrivals moments = lines.flatten ++ done ++ next
  skipped : ∀ line ∈ lines, Skipped line
  done : SaysDone done

section Steps
variable {stream : IdleStream} {moments : List Moment} {lines : List Bytes} {done next : Bytes}

theorem Sent.arrive {chunk : Bytes} (sent : Sent stream (.arrive chunk :: moments) lines done next) :
    Sent (stream.arrive chunk) moments lines done next where
  clean := sent.clean
  ended := fun ended => (List.append_eq_nil_iff.mp (sent.ended ended)).2
  bytes := by
    rw [← sent.bytes]
    simp [IdleStream.arrive, arrivals]
  skipped := sent.skipped
  done := sent.done

theorem Sent.eof (sent : Sent stream (.eof :: moments) lines done next) (last : arrivals moments = []) :
    Sent { stream with ended := true } moments lines done next :=
  ⟨sent.clean, fun _ => last, sent.bytes, sent.skipped, sent.done⟩

theorem IsLine.ne_nil {line : Bytes} (isLine : IsLine line) : line ≠ [] := by
  obtain ⟨text, -, rfl⟩ := isLine
  simp

theorem IsLine.mem {line : Bytes} (isLine : IsLine line) : lineFeed ∈ line := by
  obtain ⟨text, -, rfl⟩ := isLine
  simp

theorem Sent.poll (sent : Sent stream (.poll :: moments) lines done next) :
    (∃ stream', stream.poll = (none, stream') ∧ Sent stream' moments lines done next ∧ arrivals moments ≠ []) ∨
    (∃ line rest stream', lines = line :: rest ∧ stream.poll = (some line, stream') ∧
      Sent stream' moments rest done next) ∨
    ∃ stream', lines = [] ∧ stream.poll = (some done, stream') ∧ stream'.taken = [] ∧
      stream'.unread ++ arrivals moments = next := by
  have bytes : stream.taken ++ stream.unread ++ arrivals moments = lines.flatten ++ done ++ next := sent.bytes
  by_cases complete : lineFeed ∈ stream.unread
  · obtain ⟨text, rest, unread, clean⟩ := List.eq_append_cons_of_mem complete
    have polled := poll_line clean unread
    have isLine : IsLine (stream.taken ++ text ++ [lineFeed]) :=
      ⟨stream.taken ++ text, by simp [sent.clean, clean], rfl⟩
    have split : (stream.taken ++ text ++ [lineFeed]) ++ (rest ++ arrivals moments) =
        lines.flatten ++ done ++ next := by
      rw [← bytes, unread]
      simp
    cases lines with
    | nil =>
        obtain ⟨rfl, rfl⟩ := line_unique isLine sent.done.1 (by simpa using split)
        exact Or.inr (Or.inr ⟨_, rfl, polled, rfl, rfl⟩)
    | cons line more =>
        obtain ⟨rfl, after⟩ := line_unique isLine (sent.skipped line List.mem_cons_self).1
          (by simpa using split)
        refine Or.inr (Or.inl ⟨_, more, _, rfl, polled, ?_⟩)
        exact ⟨by simp, sent.ended, by simpa using after,
          fun line member => sent.skipped line (List.mem_cons_of_mem _ member), sent.done⟩
  · have later : lineFeed ∈ arrivals moments := by
      have somewhere : lineFeed ∈ stream.taken ++ stream.unread ++ arrivals moments := by
        rw [bytes]
        simp [sent.done.1.mem]
      simpa [sent.clean, complete] using somewhere
    have still : stream.ended = false := by
      by_contra ended
      have nothing : arrivals moments = [] := sent.ended (by simpa using ended)
      rw [nothing] at later
      cases later
    refine Or.inl ⟨_, poll_pending complete still, ?_, List.ne_nil_of_mem later⟩
    exact ⟨by simp [sent.clean, complete], by simp, by simpa using bytes, sent.skipped, sent.done⟩

end Steps

/-! ## The loop -/

section Loop
variable {server : Server} {tag : String}
  {possible : (op : Op) → Except Error op.Ret → Prop} {raised : Error → Prop}

/-- Every run ends so, or with an error that the handling of an event may raise. -/
def Recognises (possible : (op : Op) → Except Error op.Ret → Prop) (raised : Error → Prop) (tag : String)
    (next : Bytes) (loop : Action Idled) : Prop :=
  loop.Yields (σ := cacheSignature) possible fun
    | .ok idled => Recognised tag next idled
    | .error failure => raised failure

theorem recognises_done {stream stream' : IdleStream} {moments : List Moment} {done next : Bytes}
    {session : ImapSession} (saysDone : SaysDone done) (polled : stream.poll = (some done, stream'))
    (fresh : stream'.taken = []) (left : stream'.unread ++ arrivals moments = next) :
    Recognises possible raised tag next (idleLoop server tag session stream (.poll :: moments)) := by
  obtain ⟨isLine, text, decoded, isDone⟩ := saysDone
  unfold idleLoop
  rw [polled]
  dsimp only
  rw [if_neg (by simpa using isLine.ne_nil), decoded]
  dsimp only
  rw [if_pos isDone]
  exact ⟨rfl, rfl, fresh, left⟩

theorem idleLoop_skips {stream stream' : IdleStream} {moments : List Moment} {line : Bytes}
    {session : ImapSession} (skipped : Skipped line) (polled : stream.poll = (some line, stream')) :
    idleLoop server tag session stream (.poll :: moments) = idleLoop server tag session stream' moments := by
  obtain ⟨isLine, text, decoded, other⟩ := skipped
  conv_lhs => unfold idleLoop
  rw [polled]
  dsimp only
  rw [if_neg (by simpa using isLine.ne_nil), decoded]
  dsimp only
  rw [if_neg (by simp [other])]

theorem idleLoop_pending {stream stream' : IdleStream} {moments : List Moment} {session : ImapSession}
    (polled : stream.poll = (none, stream')) :
    idleLoop server tag session stream (.poll :: moments) = idleLoop server tag session stream' moments := by
  conv_lhs => unfold idleLoop
  rw [polled]

theorem arrivals_append (moments moments' : List Moment) :
    arrivals (moments ++ moments') = arrivals moments ++ arrivals moments' := by
  induction moments with
  | nil => rfl
  | cons moment moments ih =>
      cases moment with
      | arrive chunk =>
          change chunk ++ arrivals (moments ++ moments') = chunk ++ arrivals moments ++ arrivals moments'
          rw [ih, List.append_assoc]
      | eof => exact ih
      | poll => exact ih
      | timeout => exact ih
      | event event => exact ih
      | lagged => exact ih
      | closed => exact ih

theorem arrivals_polls (n : Nat) : arrivals (List.replicate n .poll) = [] := by
  induction n with
  | zero => rfl
  | succ n ih => exact ih

theorem polls_recognise {done next : Bytes} (n : Nat) {stream : IdleStream} {session : ImapSession}
    {lines : List Bytes} (sent : Sent stream (List.replicate n .poll) lines done next)
    (enough : lines.length < n) :
    Recognises possible raised tag next (idleLoop server tag session stream (List.replicate n .poll)) := by
  induction n generalizing stream lines with
  | zero => omega
  | succ n ih =>
      rw [List.replicate_succ] at sent ⊢
      rcases sent.poll with ⟨_, -, -, more⟩ | ⟨line, rest, stream', rfl, polled, sent'⟩ |
        ⟨stream', -, polled, fresh, left⟩
      · exact absurd (arrivals_polls n) more
      · rw [idleLoop_skips (sent.skipped line List.mem_cons_self) polled]
        exact ih sent' (by simpa using enough)
      · exact recognises_done sent.done polled fresh left

theorem Recognises.after_event {line : Option String} {next : Bytes} {loop : Action Idled}
    (recognises : Recognises possible raised tag next loop) :
    Recognises possible raised tag next
      (loop.bind fun rest => .ret { rest with lines := line.toList ++ rest.lines }) := by
  refine yields_bind (Yields.mono recognises fun outcome holds => ?_)
  cases outcome with
  | error failure => exact holds
  | ok idled =>
      obtain ⟨outcome, last, fresh, left⟩ := holds
      refine ⟨outcome, ?_, fresh, left⟩
      change (line.toList ++ idled.lines).getLast? = _
      rw [List.getLast?_append, last]
      rfl

theorem dropRead_fresh {stream : IdleStream} (fresh : stream.taken = []) : stream.dropRead = stream := by
  cases stream
  cases fresh
  rfl

theorem idleLoop_recognises
    (events : ∀ session event, (idleNotificationForEvent server session event).Raises (σ := cacheSignature)
      possible raised) {done next : Bytes} (n : Nat) (moments : List Moment) {stream : IdleStream}
    {session : ImapSession} {lines : List Bytes} (undisturbed : Undisturbed stream moments)
    (sent : Sent stream (moments ++ List.replicate n .poll) lines done next) (enough : lines.length < n) :
    Recognises possible raised tag next
      (idleLoop server tag session stream (moments ++ List.replicate n .poll)) := by
  induction moments generalizing stream session lines with
  | nil => exact polls_recognise n sent enough
  | cons moment moments ih =>
      cases moment with
      | arrive chunk => exact ih undisturbed sent.arrive enough
      | eof =>
          have last : arrivals (moments ++ List.replicate n .poll) = [] := by
            rw [arrivals_append, undisturbed.1, arrivals_polls, List.append_nil]
          exact ih undisturbed.2 (sent.eof last) enough
      | poll =>
          rw [List.cons_append] at sent ⊢
          unfold Undisturbed at undisturbed
          rcases sent.poll with ⟨stream', polled, sent', -⟩ | ⟨line, rest, stream', rfl, polled, sent'⟩ |
            ⟨stream', -, polled, fresh, left⟩
          · rw [polled] at undisturbed
            rw [idleLoop_pending polled]
            exact ih undisturbed sent' enough
          · have skipped := sent.skipped line List.mem_cons_self
            rw [polled] at undisturbed
            rw [idleLoop_skips skipped polled]
            refine ih (undisturbed.resolve_left ?_) sent' (by simp at enough; omega)
            rintro ⟨-, text, decoded, isDone⟩
            obtain ⟨-, text', decoded', other⟩ := skipped
            rw [decoded'] at decoded
            cases decoded
            rw [other] at isDone
            cases isDone
          · exact recognises_done sent.done polled fresh left
      | timeout => exact undisturbed.elim
      | event event =>
          obtain ⟨fresh, undisturbed⟩ := undisturbed
          refine (events session event).yields_bind (fun _ => id) fun notified => ?_
          obtain ⟨line, session⟩ := notified
          rw [dropRead_fresh fresh]
          have sent' : Sent stream (moments ++ List.replicate n .poll) lines done next :=
            ⟨sent.clean, sent.ended, sent.bytes, sent.skipped, sent.done⟩
          exact (ih undisturbed sent' enough).after_event
      | lagged =>
          obtain ⟨fresh, undisturbed⟩ := undisturbed
          have sent' : Sent stream (moments ++ List.replicate n .poll) lines done next :=
            ⟨sent.clean, sent.ended, sent.bytes, sent.skipped, sent.done⟩
          rw [List.cons_append, idleLoop, dropRead_fresh fresh]
          exact ih undisturbed sent' enough
      | closed => exact undisturbed.elim

end Loop

/-! ## Notifications -/

theorem notification_raises {server : Server} {possible : (op : Op) → Except Error op.Ret → Prop}
    {raised : Error → Prop}
    (reads : ∀ mailboxId failure, possible (.listMailboxMessages mailboxId) (.error failure) → raised failure)
    (session : ImapSession) (event : MutationEvent) :
    (idleNotificationForEvent server session event).Raises (σ := cacheSignature) possible raised := by
  have list : ∀ mailboxId, (await (.listMailboxMessages mailboxId)).Raises (σ := cacheSignature)
      possible raised := fun mailboxId => Raises.ask (reads mailboxId)
  have count : ∀ mailboxId, (countMessages mailboxId).Raises (σ := cacheSignature) possible raised :=
    fun mailboxId => (list mailboxId).bind fun _ => trivial
  have position : ∀ mailboxId localUid, (Commands.sequenceNumberForLocalUid mailboxId localUid).Raises
      (σ := cacheSignature) possible raised := fun mailboxId _ => (list mailboxId).bind fun _ => trivial
  have exists' : ∀ session snapshot, (existsNotification session snapshot).Raises (σ := cacheSignature)
      possible raised := by
    intro session snapshot
    refine (count _).bind fun existsCount => ?_
    split
    · trivial
    · split <;> trivial
  have flags : ∀ session snapshot, (flagsNotification session snapshot event).Raises (σ := cacheSignature)
      possible raised := by
    intro session snapshot
    unfold flagsNotification
    cases event.localUid with
    | none => trivial
    | some localUid =>
        refine (position _ _).bind fun sequence => ?_
        cases sequence with
        | none => trivial
        | some sequence => exact (count _).bind fun _ => trivial
  unfold idleNotificationForEvent
  cases session.selectedMailboxSnapshot with
  | none => trivial
  | some snapshot =>
      dsimp only
      split
      · unfold selectedNotification
        split
        · exact (count _).bind fun _ => trivial
        · dsimp only
          split
          · refine (flags session snapshot).bind fun notified => ?_
            cases notified with
            | some notified => trivial
            | none => exact exists' session snapshot
          · exact exists' session snapshot
      · trivial

/-! ## The inputs of the loop -/

/-- What the loop gets to see; nothing if it reads a line that is not UTF-8. -/
def inputs : IdleStream → List Moment → Option (List IdleInput)
  | _, [] => some []
  | stream, .arrive chunk :: moments => inputs (stream.arrive chunk) moments
  | stream, .eof :: moments => inputs { stream with ended := true } moments
  | stream, .poll :: moments =>
      match stream.poll with
      | (none, stream) => inputs stream moments
      | (some bytes, stream) =>
          if bytes.isEmpty then some []
          else (fromUtf8 bytes).bind fun text =>
            if isDone text then some [.line text] else (inputs stream moments).map (.line text :: ·)
  | _, .timeout :: _ => some [.timeout]
  | stream, .event event :: moments => (inputs stream.dropRead moments).map (.event event :: ·)
  | stream, .lagged :: moments => (inputs stream.dropRead moments).map (.lagged :: ·)
  | _, .closed :: _ => some [.closed]

theorem idleLoop_handles {server : Server} {tag : String} (moments : List Moment) {session : ImapSession}
    {stream : IdleStream} {seen : List IdleInput} (isSeen : inputs stream moments = some seen) :
    ((idleLoop server tag session stream moments).bind fun idled => .ret ⟨idled.lines, idled.session⟩) =
      handleIdle server tag session seen := by
  induction moments generalizing session stream seen with
  | nil =>
      cases isSeen
      rfl
  | cons moment moments ih =>
      cases moment with
      | arrive chunk => exact ih isSeen
      | eof => exact ih isSeen
      | poll =>
          unfold inputs at isSeen
          unfold idleLoop
          rcases polled : stream.poll with ⟨_ | bytes, stream'⟩
          · rw [polled] at isSeen
            exact ih isSeen
          · rw [polled] at isSeen
            dsimp only at isSeen ⊢
            split at isSeen
            · rename_i empty
              cases isSeen
              rw [if_pos empty]
              rfl
            · rename_i nonempty
              obtain ⟨text, decoded, isSeen⟩ := Option.bind_eq_some_iff.mp isSeen
              rw [if_neg nonempty, decoded]
              dsimp only
              split at isSeen
              · rename_i done
                cases isSeen
                rw [if_pos done]
                unfold isDone at done
                rw [handleIdle, if_pos done]
                rfl
              · rename_i other
                obtain ⟨rest, isRest, rfl⟩ := Option.map_eq_some_iff.mp isSeen
                rw [if_neg other]
                unfold isDone at other
                rw [handleIdle, if_neg other]
                exact ih isRest
      | timeout =>
          cases isSeen
          rfl
      | event event =>
          obtain ⟨rest, isRest, rfl⟩ := Option.map_eq_some_iff.mp isSeen
          rw [idleLoop, handleIdle, Prog.bind_eq, Prog.bind_eq, Prog.bind_assoc]
          congr 1
          funext notified
          obtain ⟨line, session'⟩ := notified
          dsimp only
          rw [Prog.bind_eq, Prog.bind_eq, ← ih isRest, Prog.bind_assoc, Prog.bind_assoc]
          rfl
      | lagged =>
          obtain ⟨rest, isRest, rfl⟩ := Option.map_eq_some_iff.mp isSeen
          rw [idleLoop, handleIdle]
          exact ih isRest
      | closed =>
          cases isSeen
          rfl

/-! ## The line that says DONE -/

/-- However the bytes are cut and whenever they are read: once the line that says DONE has arrived,
a poll for each line ends the loop with it, and what comes behind it is left for the next command. -/
theorem idle_recognises_done (server : Server) (tag : String) (session : ImapSession) (unread : Bytes)
    (moments : List Moment) (lines : List Bytes) (done next : Bytes) (n : Nat) (world : World)
    (undisturbed : Undisturbed ⟨unread, [], false⟩ moments)
    (bytes : unread ++ arrivals moments = lines.flatten ++ done ++ next)
    (skipped : ∀ line ∈ lines, Skipped line) (saysDone : SaysDone done) (enough : lines.length < n) :
    (∃ idled world', (idleLoop server tag session ⟨unread, [], false⟩
        (moments ++ List.replicate n Moment.poll)).eval (cacheHandler server.lib) world = (.ok idled, world') ∧
      Recognised tag next idled) ∧
    ∀ faults idled world', (idleLoop server tag session ⟨unread, [], false⟩
        (moments ++ List.replicate n Moment.poll)).run (cacheHandler server.lib) faults world = (.ok idled, world') →
      Recognised tag next idled := by
  have sent : Sent ⟨unread, [], false⟩ (moments ++ List.replicate n .poll) lines done next := by
    refine ⟨by simp, by simp, ?_, skipped, saysDone⟩
    rw [arrivals_append, arrivals_polls]
    simpa using bytes
  constructor
  · let possible (op : Op) (answer : Except Error op.Ret) : Prop :=
      ∃ world : World, (world.perform server.lib op).1 = answer
    have recognises : Recognises possible (fun _ => False) tag next (idleLoop server tag session
        ⟨unread, [], false⟩ (moments ++ List.replicate n .poll)) := by
      refine idleLoop_recognises (notification_raises ?_) n moments undisturbed sent enough
      rintro mailboxId failure ⟨world, read⟩
      cases read
    have ensures : (idleLoop server tag session ⟨unread, [], false⟩
        (moments ++ List.replicate n .poll)).Ensures (cacheHandler server.lib) (noFault Error)
        (fun idled _ => Recognised tag next idled) (fun _ _ => False) world := by
      refine Yields.ensures recognises ?_ world
      rintro fault rfl op s
      rw [Handler.answer_none]
      exact ⟨s, rfl⟩
    cases ran : (idleLoop server tag session ⟨unread, [], false⟩
        (moments ++ List.replicate n .poll)).eval (cacheHandler server.lib) world with
    | mk outcome world' =>
        cases outcome with
        | ok idled => exact ⟨idled, world', rfl, ensures.eval.1 idled (by rw [ran])⟩
        | error failure => exact (ensures.eval.2 failure (by rw [ran])).elim
  · intro faults idled world' ran
    have recognises : Recognises (fun _ _ => True) (fun _ => True) tag next (idleLoop server tag session
        ⟨unread, [], false⟩ (moments ++ List.replicate n .poll)) :=
      idleLoop_recognises (notification_raises fun _ _ _ => trivial) n moments undisturbed sent enough
    have returns : (idleLoop server tag session ⟨unread, [], false⟩
        (moments ++ List.replicate n .poll)).Returns (Recognised tag next) :=
      Yields.mono recognises fun outcome holds => by
        cases outcome with
        | ok idled => exact holds
        | error failure => trivial
    exact returns.run (by rw [ran])

/-- DONE and a command behind it arrive in two chunks; an event is handled between them, after the
loop has been polled some times. -/
def cut (polls : Nat) : List Moment :=
  Moment.arrive (Mutations.utf8 "DO") :: List.replicate polls Moment.poll ++
    [Moment.event (.messageChanged (some 1) none none "upsert_message"),
      Moment.arrive (Mutations.utf8 "NE\r\nA2 NOOP\r\n")]

def idleSession : ImapSession := RawFetchDispatch.sampleConnection.session

theorem cut_done_recognised :
    ∃ idled world', (idleLoop RawFetchDispatch.sampleServer "A1" idleSession ⟨[], [], false⟩
        (cut 0 ++ List.replicate 1 .poll)).eval (cacheHandler Sample.libraries) ExpungeReplay.inbox =
          (.ok idled, world') ∧
      Recognised "A1" (Mutations.utf8 "A2 NOOP\r\n") idled := by
  have saysDone : SaysDone (Mutations.utf8 "DONE\r\n") :=
    ⟨⟨Mutations.utf8 "DONE\r", by decide +kernel, by decide +kernel⟩, "DONE\r\n", fromUtf8_utf8 _, by decide +kernel⟩
  exact (idle_recognises_done RawFetchDispatch.sampleServer "A1" idleSession [] (cut 0) []
    (Mutations.utf8 "DONE\r\n") (Mutations.utf8 "A2 NOOP\r\n") 1 ExpungeReplay.inbox
    ⟨rfl, trivial⟩ (by decide +kernel) (by simp) saysDone (by simp)).1

/-- With a poll before the event, the loop has read `DO` and forgets it. It reads `NE` and then the
next command as lines that do not say DONE, and goes on waiting. -/
theorem cut_done_lost :
    arrivals (cut 1) = Mutations.utf8 "DONE\r\nA2 NOOP\r\n" ∧
    ((idleLoop RawFetchDispatch.sampleServer "A1" idleSession ⟨[], [], false⟩
        (cut 1 ++ List.replicate 3 .poll)).eval (cacheHandler Sample.libraries)
          ExpungeReplay.inbox).1.toOption.map (fun idled => (idled.outcome, idled.lines, idled.stream)) =
      some (.waiting, [], ⟨[], [], false⟩) := by
  refine ⟨by decide +kernel, by decide +kernel⟩

end ImapCache.IdleReads
