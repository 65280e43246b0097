import PageRefresh.Proofs.Session.Log
import PageRefresh.Proofs.Session.Tidy

/-!
What the log says of a broadcast, and what its call returns.

A call of a broadcast logs an opening event, then whatever the refreshers that it calls log while
they are called, and its own warnings in between.  From the opening event on, the answers that the
broadcast has taken in, the warnings in the log that lie outside of further broadcasts and the
report go along with each other (`Underway`).  Every turn keeps it so, until the event that closes
the broadcast is logged and its call returns (`Underway.turn`).
-/

namespace PageRefresh.Session

/-- How a broadcast ends whose calls had these answers: the failures that it has warned of, the
event that closes it and what its call returns. -/
inductive Broadcast.Ends (policy : BroadcastPolicy) (b : Broadcast)
    (answers : List (Called Refresher)) :
    List Failure → Event → Except RefreshError Report → Prop where
  /-- Every entry was called, and all failures are in the report. -/
  | completed (hentries : answers.map Called.refresher = b.entries)
      (habort : policy = .abort → ∀ call ∈ answers, call.outcome = .ok ()) :
      b.Ends policy answers (Called.failures answers 0)
        (.broadcastCompleted b.kind b.entries.length (Called.failures answers 0).length)
        (.ok ⟨b.kind, b.entries.length, Called.failures answers 0⟩)
  /-- An entry failed, and those after it were not called. -/
  | aborted {before : List (Called Refresher)} {last : Called Refresher} {source : RefreshError}
      (hpolicy : policy = .abort) (hanswers : answers = before ++ [last])
      (hbefore : ∀ call ∈ before, call.outcome = .ok ()) (hlast : last.outcome = .error source)
      (hentries : answers.map Called.refresher = b.entries.take (before.length + 1)) :
      b.Ends policy answers [] (.broadcastAborted b.kind before.length last.fragment source)
        (.error (.broadcastAborted b.kind before.length source))

namespace Broadcast.Ends

variable {policy : BroadcastPolicy} {b : Broadcast} {answers : List (Called Refresher)}
  {failures : List Failure} {closing : Event} {result : Except RefreshError Report}

theorem isClosing (hends : b.Ends policy answers failures closing result) :
    closing.isClosing = true := by
  cases hends <;> rfl

theorem ok_iff (hends : b.Ends policy answers failures closing result) :
    (∃ report, result = .ok report) ↔
      ∃ invoked failed, closing = .broadcastCompleted b.kind invoked failed := by
  cases hends <;> simp

theorem error_iff (hends : b.Ends policy answers failures closing result) (index : Nat)
    (source : RefreshError) :
    result = .error (.broadcastAborted b.kind index source) ↔
      ∃ fragment, closing = .broadcastAborted b.kind index fragment source := by
  cases hends <;> simp

/-- The log has the text of the failure that an aborted broadcast returns. -/
theorem text (hends : b.Ends policy answers failures closing result) {e : RefreshError}
    (he : result = .error e) :
    policy = .abort ∧ ∃ text, e.cause? = some text ∧ ("error", .text text) ∈ closing.fields := by
  cases hends with
  | completed hentries habort => contradiction
  | aborted hpolicy hanswers hbefore hlast hentries =>
      obtain rfl := Except.error.inj he
      exact ⟨hpolicy, _, rfl, by simp [Event.fields]⟩

end Broadcast.Ends

namespace Machine

/-- The answer that a turn takes in, for the broadcast that lies on top of `depth` tasks. -/
def answered? (depth : Nat) (m : Machine) (_ : Instant) : Turn → Option (Called Refresher)
  | .move .perform =>
      match m.agenda with
      | .settling _ _ report called outcome _ :: rest =>
          if rest.length = depth then some ⟨report.kind, called, m.world.fragmentOf called, outcome⟩
          else none
      | _ => none
  | _ => none

end Machine

/-- The task is the broadcast that `asker` called for, once these answers have been taken in. -/
def Broadcast.At (b : Broadcast) (asker : Asker) (answers : List (Called Refresher))
    (report : Report) : Task → Prop
  | .broadcasting asker' cause report' left =>
      asker' = asker ∧ cause = b.cause ∧ report' = report ∧
        answers.map Called.refresher ++ left = b.entries
  | .settling asker' cause report' called _ left =>
      asker' = asker ∧ cause = b.cause ∧ report' = report ∧
        answers.map Called.refresher ++ called :: left = b.entries
  | _ => False

namespace Machine

section Call

variable (policy : BroadcastPolicy) (asker : Asker) (b : Broadcast) (rest : List Task)
  (answers : List (Called Refresher)) (log : List Event) (m : Machine)

/-- The broadcast is under way on top of the tasks in `rest`.  It has taken in these answers, and
this was logged since it was opened. -/
structure Underway : Prop where
  world : m.world.policy = policy
  task : ∃ above task report, m.agenda = above ++ task :: rest ∧ b.At asker answers report task ∧
    report.kind = b.kind ∧ report.Covers policy answers ∧
      Unclosed policy (bracketsOf above) log report.warnings

/-- The call of the broadcast has returned to the tasks in `rest`.  It took in these answers, and
this was logged since it was opened. -/
def Returned : Prop :=
  ∃ body closing failures result, log = body ++ [closing] ∧
    Surface policy body (failures.map (Failure.warning b.kind)) ∧
      b.Ends policy answers failures closing result ∧
        ∃ records, m.Replied asker (records ++ [.event closing]) (b.cause.reply result) rest

end Call

variable {policy : BroadcastPolicy} {asker : Asker} {b : Broadcast} {rest : List Task}
  {answers : List (Called Refresher)} {log : List Event} {m : Machine}

theorem answered?_none {now : Instant} {t : Turn} {depth : Nat} {task : Task} {below : List Task}
    (hagenda : m.agenda = task :: below) (hdepth : below.length ≠ depth) :
    m.answered? depth now t = none := by
  unfold answered?
  split
  · split
    · rename_i hsettling
      rw [hagenda] at hsettling
      obtain ⟨-, rfl⟩ := List.cons.inj hsettling
      rw [if_neg hdepth]
    · rfl
  · rfl

/-- A turn that leaves the broadcast alone. -/
theorem Underway.beside {above : List Task} {task : Task} {report : Report} {t : Turn}
    (now : Instant) (hpolicy : m.world.policy = policy)
    (hagenda : m.agenda = above ++ task :: rest) (hat : b.At asker answers report task)
    (hkind : report.kind = b.kind) (hcovers : report.Covers policy answers)
    (hlog : Unclosed policy (bracketsOf above) log report.warnings)
    (ht : above = [] → t.isBeside = true) :
    (m.turn now t).Underway policy asker b rest
      (answers ++ (m.answered? rest.length now t).toList) (log ++ m.logged now t) := by
  have hnone : m.answered? rest.length now t = none := by
    cases above with
    | nil =>
        cases t with
        | decide outcome => rfl
        | move mv =>
            cases mv with
            | perform => exact absurd (ht rfl) (by simp [Turn.isBeside])
            | _ => rfl
    | cons first above =>
        apply answered?_none hagenda
        simp
        omega
  rw [hnone, Option.toList_none, List.append_nil]
  subst hpolicy
  obtain ⟨above', hnext, hlog'⟩ := turn_unclosed now hagenda (fun h => .inr (ht h)) hlog
  exact ⟨m.turn_policy now t, above', task, report, hnext, hat, hkind, hcovers, hlog'⟩

section Perform

variable {report : Report} (now : Instant)

/-- Nobody is left to be called. -/
theorem returned_completed (hagenda : m.agenda = .broadcasting asker b.cause report [] :: rest)
    (hentries : answers.map Called.refresher = b.entries) (hkind : report.kind = b.kind)
    (hcovers : report.Covers policy answers) (hlog : Surface policy log report.warnings) :
    (m.turn now (.move .perform)).Returned policy asker b rest answers
      (log ++ m.logged now (.move .perform)) := by
  have hmoved : m.turn now (.move .perform) = ⟨(m.world.log report.completedEvent).answer asker
      (b.cause.reply (.ok report)), rest⟩ := move_perform now hagenda
  have hlogged : m.logged now (.move .perform) = [report.completedEvent] := by
    apply logged_of_append
    rw [hmoved, World.logged_answer, World.logged_log]
  have hreport : report = ⟨b.kind, b.entries.length, Called.failures answers 0⟩ := by
    obtain ⟨kind, invoked, failures⟩ := report
    obtain ⟨rfl, rfl, -⟩ := hcovers
    rw [← hentries, List.length_map, ← hkind]
  refine ⟨log, report.completedEvent, Called.failures answers 0, .ok report, by rw [hlogged], ?_,
    ?_, m.world.journal, by rw [hmoved]; exact replied_answer _ _ _ rest⟩
  · rwa [Report.warnings, hcovers.failures, hkind] at hlog
  · rw [hreport]
    exact .completed hentries hcovers.abort

/-- The next refresher is called. -/
theorem Underway.call {r : Refresher} {left : List Refresher} (hpolicy : m.world.policy = policy)
    (hagenda : m.agenda = .broadcasting asker b.cause report (r :: left) :: rest)
    (hentries : answers.map Called.refresher ++ r :: left = b.entries)
    (hkind : report.kind = b.kind) (hcovers : report.Covers policy answers)
    (hlog : Surface policy log report.warnings) :
    (m.turn now (.move .perform)).Underway policy asker b rest answers
      (log ++ m.logged now (.move .perform)) := by
  let call := m.world.call now report.kind r
  have hmoved : m.turn now (.move .perform) =
      ⟨call.1, (call.2.1 ++ [.settling asker b.cause report r call.2.2 left]) ++ rest⟩ :=
    move_perform now hagenda
  obtain ⟨es, hes, hadded⟩ := m.world.call_logsBeside now report.kind r
  have hlogged : m.logged now (.move .perform) = es := by
    apply logged_of_append
    rw [hmoved]
    exact hadded
  refine ⟨(m.turn_policy now _).trans hpolicy, call.2.1,
    .settling asker b.cause report r call.2.2 left, report, ?_, ⟨rfl, rfl, rfl, hentries⟩,
    hkind, hcovers, ?_⟩
  · rw [hmoved]
    exact List.append_assoc _ _ _
  · rw [hlogged, bracketsOf_aside (m.world.call_aside now report.kind r)]
    exact hlog.append_beside hes

/-- The answer of the refresher that was called is taken in. -/
theorem Underway.settle {called : Refresher} {outcome : Except RefreshError Unit}
    {left : List Refresher} (hpolicy : m.world.policy = policy)
    (hagenda : m.agenda = .settling asker b.cause report called outcome left :: rest)
    (hentries : answers.map Called.refresher ++ called :: left = b.entries)
    (hkind : report.kind = b.kind) (hcovers : report.Covers policy answers)
    (hlog : Surface policy log report.warnings) :
    let m' := m.turn now (.move .perform)
    let answers' := answers ++ [⟨report.kind, called, m.world.fragmentOf called, outcome⟩]
    let log' := log ++ m.logged now (.move .perform)
    m'.Underway policy asker b rest answers' log' ∨
      m'.Returned policy asker b rest answers' log' := by
  intro m' answers' log'
  subst hpolicy
  obtain ⟨hgoes, hends⟩ := move_settling now hagenda
  let fragment := m.world.fragmentOf called
  let call : Called Refresher := ⟨report.kind, called, fragment, outcome⟩
  have hlogged : ∀ {w : World} {tasks : List Task}, m' = ⟨w, tasks⟩ →
      w.logged = m.world.logged ++ report.settleEvents m.world.policy fragment outcome →
        log' = log ++ report.settleEvents m.world.policy fragment outcome := by
    intro w tasks hm' hw
    simp only [log']
    rw [logged_of_append]
    rw [← hw]
    exact congrArg (·.world.logged) hm'
  cases hsettle : report.settle m.world.policy fragment outcome with
  | ok next =>
      left
      have hmoved := hgoes next hsettle
      obtain ⟨hcovers', hkind', failed, hevents, hwarnings⟩ := hcovers.settle_ok call hsettle
      refine ⟨m.turn_policy now _, [], _, next, congrArg Machine.agenda hmoved,
        ⟨rfl, rfl, rfl, ?_⟩, hkind'.trans hkind, hcovers', ?_⟩
      · rw [← hentries]
        simp [answers']
      · rw [hlogged hmoved (World.logged_logAll _ _), hwarnings, hevents]
        exact hlog.append (.of_failures _ _)
  | error e =>
      right
      have hmoved : m' = _ := hends e hsettle
      obtain ⟨source, habort, houtcome, rfl, hevents⟩ := Report.settle_eq_error hsettle
      rw [hevents] at hmoved
      have hadded := hlogged hmoved (by rw [World.logged_answer, World.logged_logAll, hevents])
      rw [hevents] at hadded
      rw [hcovers.warnings_eq_nil habort] at hlog
      refine ⟨log, _, [], .error (.broadcastAborted report.kind report.invoked source), hadded,
        hlog, ?_, m.world.journal, ?_⟩
      · rw [hkind, hcovers.invoked]
        refine .aborted habort rfl (hcovers.abort habort) houtcome ?_
        have hsplit : answers'.map Called.refresher ++ left = b.entries := by
          simpa [answers'] using hentries
        rw [← hsplit, List.take_left' (by simp [answers'])]
      · rw [hmoved]
        exact replied_answer _ _ _ rest

/-- The refresher that was called answers otherwise. -/
theorem Underway.decide {task : Task} (hpolicy : m.world.policy = policy)
    (hagenda : m.agenda = task :: rest) (hat : b.At asker answers report task)
    (hkind : report.kind = b.kind) (hcovers : report.Covers policy answers)
    (hlog : Surface policy log report.warnings) (outcome : Except RefreshError Unit) :
    (m.turn now (.decide outcome)).Underway policy asker b rest
      (answers ++ (m.answered? rest.length now (.decide outcome)).toList)
      (log ++ m.logged now (.decide outcome)) := by
  have hnone : m.answered? rest.length now (.decide outcome) = none := rfl
  rw [logged_decide, List.append_nil, hnone, Option.toList_none, List.append_nil]
  refine ⟨(m.turn_policy now _).trans hpolicy, [], ?_⟩
  rcases m.turn_decide now outcome with hsame | ⟨_, _, _, _, _, _, _, hsettling, hdecided⟩
  · rw [hsame]
    exact ⟨task, report, hagenda, hat, hkind, hcovers, hlog⟩
  · rw [hagenda] at hsettling
    obtain ⟨rfl, rfl⟩ := List.cons.inj hsettling
    rw [hdecided]
    exact ⟨_, report, rfl, hat, hkind, hcovers, hlog⟩

end Perform

/-- After a turn the broadcast is still under way, or its call has returned. -/
theorem Underway.turn (hunderway : m.Underway policy asker b rest answers log) (now : Instant)
    (t : Turn) :
    let m' := m.turn now t
    let answers' := answers ++ (m.answered? rest.length now t).toList
    let log' := log ++ m.logged now t
    m'.Underway policy asker b rest answers' log' ∨
      m'.Returned policy asker b rest answers' log' := by
  intro m' answers' log'
  obtain ⟨hpolicy, above, task, report, hagenda, hat, hkind, hcovers, hlog⟩ := hunderway
  by_cases ht : above = [] → t.isBeside = true
  · exact .inl (.beside now hpolicy hagenda hat hkind hcovers hlog ht)
  · obtain ⟨rfl, htop⟩ := Classical.not_imp.mp ht
    cases t with
    | decide outcome => exact .inl (.decide now hpolicy hagenda hat hkind hcovers hlog outcome)
    | move mv =>
        cases mv with
        | issue asker c => exact absurd rfl htop
        | collect => exact absurd rfl htop
        | perform =>
            cases task with
            | broadcasting asker' cause report' left =>
                obtain ⟨rfl, rfl, rfl, hentries⟩ := hat
                have hanswers : answers' = answers := by
                  simp [answers', answered?, hagenda]
                rw [hanswers]
                cases left with
                | nil =>
                    rw [List.append_nil] at hentries
                    exact .inr (returned_completed now hagenda hentries hkind hcovers hlog)
                | cons r left => exact .inl (.call now hpolicy hagenda hentries hkind hcovers hlog)
            | settling asker' cause report' called outcome left =>
                obtain ⟨rfl, rfl, rfl, hentries⟩ := hat
                have hanswers : answers' =
                    answers ++ [⟨report'.kind, called, m.world.fragmentOf called, outcome⟩] := by
                  simp [answers', answered?, hagenda]
                rw [hanswers]
                exact Underway.settle now hpolicy hagenda hentries hkind hcovers hlog
            | _ => exact hat.elim

/-- Until its call returns, the broadcast is under way. -/
theorem Underway.play (hunderway : m.Underway policy asker b rest answers log) {play : Play}
    (habove : m.Throughout (fun m _ _ => rest.length < m.agenda.length) play) :
    let m' := m.played play
    let answers' := answers ++ m.trail (answered? rest.length) play
    m'.Underway policy asker b rest answers' (log ++ m.log play) ∨
      m'.Returned policy asker b rest answers' (log ++ m.log play) := by
  induction play generalizing m answers log with
  | nil => exact .inl (by simpa [played, trail, Machine.log] using hunderway)
  | cons head play ih =>
      obtain ⟨now, t⟩ := head
      rw [trail, Machine.log, ← List.append_assoc, ← List.append_assoc]
      rcases hunderway.turn now t with hstill | hreturned
      · exact ih hstill habove.2
      · obtain rfl : play = [] := by
          cases play with
          | nil => rfl
          | cons next play =>
              obtain ⟨body, closing, failures, result, -, -, -, records, hreplied⟩ := hreturned
              have hlonger : rest.length < (m.turn now t).agenda.length := habove.2.1
              rw [hreplied.agenda] at hlonger
              exact absurd hlonger (Nat.lt_irrefl _)
        right
        simpa [played, trail, Machine.log] using hreturned

theorem Underway.length_lt (hunderway : m.Underway policy asker b rest answers log) :
    rest.length < m.agenda.length := by
  obtain ⟨-, above, task, report, hagenda, -⟩ := hunderway
  rw [hagenda, List.length_append, List.length_cons]
  omega

/-- A broadcast begins with an opening event. -/
theorem underway_begun {c : Command} {now : Instant} (hagenda : m.agenda = .command asker c :: rest)
    (hbegun : m.begun? now (.move .perform) = some b) :
    (m.turn now (.move .perform)).Underway m.world.policy asker b rest [] [] ∧
      ∃ before, Beside before ∧ m.logged now (.move .perform) =
        before ++ [.broadcastStarted b.kind b.entries.length m.world.policy] := by
  rw [begun?_command now hagenda] at hbegun
  have hmoved : m.turn now (.move .perform) =
      ⟨(m.world.begin now asker c).1, (m.world.begin now asker c).2 ++ rest⟩ :=
    move_perform now hagenda
  obtain ⟨before, hbeside, hadded⟩ := m.world.begin_logged now asker c
  rw [hbegun, List.append_assoc] at hadded
  constructor
  · refine ⟨m.turn_policy now _, [], ?_⟩
    rcases m.world.begin_broadcast now asker c with ⟨cause, kind, htasks, -⟩ | haside
    · rw [htasks, begunBy, Option.some.injEq] at hbegun
      subst hbegun
      refine ⟨.broadcasting asker cause (.start kind) m.world.shell.registry.entries, .start kind,
        ?_, ⟨rfl, rfl, rfl, rfl⟩, rfl, Report.covers_start _ kind, .nil⟩
      rw [hmoved, htasks]
      rfl
    · rw [begunBy_aside haside] at hbegun
      contradiction
  · refine ⟨before, hbeside, logged_of_append ?_⟩
    rw [hmoved]
    exact hadded

end Machine

/-- What a session shows of the log after an operation is well nested. -/
theorem State.perform_events {s s' : State} {now : Instant} {limit : Nat} {c : Command}
    {view : StepView} (hperform : s.perform now limit c = some (view, s')) :
    Surface s.world.policy view.events [] := by
  let m : Machine := ⟨{ s.world with journal := [], reply := none }, [.command none c]⟩
  unfold perform at hperform
  simp only at hperform
  split at hperform
  · contradiction
  · rename_i w hrun
    obtain ⟨rfl, -⟩ := Prod.mk.inj (Option.some.inj hperform)
    obtain ⟨count, hafter⟩ := Machine.run_eq_after hrun
    let play : Play := (List.replicate count (now, .perform)).map fun e => (e.1, .move e.2)
    have hplayed : m.played play = ⟨w, []⟩ := (m.played_of_run _).trans hafter
    have hopen : Unclosed m.world.policy (bracketsOf m.agenda) [] [] := Surface.nil
    have hclosed := Machine.played_unclosed rfl hopen play
    have hmoves : ∀ e ∈ play, e.2 ≠ .move .collect := by
      simp [play]
    have hlogged := Machine.played_logged (m := m) hmoves
    rw [hplayed] at hclosed hlogged
    have hevents : events w.journal = m.log play := hlogged
    rw [hevents]
    exact hclosed

/-- The call of a broadcast, on top of the tasks in `rest`, logged this from the move that carried
it out until it had returned.  It took in these answers, logged `body` and then `closing`, warned of
these failures and returned this result. -/
structure BracketedCall (policy : BroadcastPolicy) (b : Broadcast) (asker : Asker)
    (rest : List Task) (answers : List (Called Refresher)) (log : List Event) (m : Machine)
    (body : List Event) (closing : Event) (failures : List Failure)
    (result : Except RefreshError Report) : Prop where
  logged : ∃ before, Beside before ∧
    log = before ++ .broadcastStarted b.kind b.entries.length policy :: (body ++ [closing])
  /-- In between it has given its warnings, and no others lie outside of further broadcasts. -/
  given : Surface policy body (failures.map (Failure.warning b.kind))
  ends : b.Ends policy answers failures closing result
  replied : ∃ records, m.Replied asker (records ++ [.event closing]) (b.cause.reply result) rest
  /-- It is closed once, and what it has given can be read in no other way. -/
  unique : ∀ body' given closing' later, Surface policy body' given → closing'.isClosing = true →
    body ++ [closing] = body' ++ closing' :: later →
      body = body' ∧ failures.map (Failure.warning b.kind) = given ∧ closing = closing' ∧
        [] = later
  /-- The log shows whether a report is returned, ... -/
  ok_iff : (∃ report, result = .ok report) ↔
    ∃ invoked failed, closing = .broadcastCompleted b.kind invoked failed
  /-- ... or at whom the broadcast was aborted, ... -/
  error_iff : ∀ index source, result = .error (.broadcastAborted b.kind index source) ↔
    ∃ fragment, closing = .broadcastAborted b.kind index fragment source
  /-- ... with the text of the failure that aborted it, ... -/
  text : ∀ e, result = .error e → policy = .abort ∧
    ∃ text, e.cause? = some text ∧ ("error", .text text) ∈ closing.fields
  /-- ... and of those that it warned of. -/
  warned : ∀ f : Failure, (f.warning b.kind).fields =
    [("kind", .text b.kind.name), ("index", .number f.index)] ++
      Event.fragmentField f.fragment ++ [("error", .text f.error.message)]

/-- What the log of a play says of its broadcasts. -/
structure Bracketed (policy : BroadcastPolicy) (m : Machine) (play : Play) : Prop where
  /-- Every broadcast that was opened is closed, but for those that are under way. -/
  unclosed : Unclosed policy (bracketsOf (m.played play).agenda) (m.log play) []
  idle : (m.played play).idle = true → Surface policy (m.log play) []
  /-- So it is with what a session shows of an operation. -/
  shown : ∀ s s' view now limit c, s.world.policy = policy →
    State.perform s now limit c = some (view, s') → Surface policy view.events []
  /-- A broadcast begins to everybody who is registered, and whatever happens meanwhile, its call
  returns. -/
  calls : ∀ asker c rest now b, (m.played play).agenda = .command asker c :: rest →
    (m.played play).begun? now (.move .perform) = some b →
      b.entries = (m.played play).world.shell.registry.entries ∧
        ∀ later, ((m.played play).turn now (.move .perform)).Throughout
            (fun m _ _ => rest.length < m.agenda.length) later →
          (((m.played play).turn now (.move .perform)).played later).agenda.length = rest.length →
            ∃ body closing failures result, BracketedCall policy b asker rest
              (((m.played play).turn now (.move .perform)).trail
                (Machine.answered? rest.length) later)
              ((m.played play).logged now (.move .perform) ++
                ((m.played play).turn now (.move .perform)).log later)
              (((m.played play).turn now (.move .perform)).played later)
              body closing failures result

/-- The log brackets every broadcast, and says of each what its call returns. -/
theorem broadcasts_bracketed (policy : BroadcastPolicy) (play : Play) :
    Bracketed policy (.new policy) play := by
  let m := (Machine.new policy).played play
  have hpolicy : m.world.policy = policy := (Machine.new policy).played_policy play
  have hunclosed : Unclosed policy (bracketsOf m.agenda) ((Machine.new policy).log play) [] :=
    Machine.played_unclosed (m := .new policy) rfl Surface.nil play
  constructor
  case unclosed => exact hunclosed
  case idle =>
    intro hidle
    rwa [bracketsOf_aside (Machine.idle_iff.mp hidle)] at hunclosed
  case shown =>
    rintro s s' view now limit c rfl hperform
    exact State.perform_events hperform
  case calls =>
    intro asker c rest now b hagenda hbegun
    refine ⟨Machine.begun?_entries hbegun, ?_⟩
    intro later habove hlength
    obtain ⟨hunderway, before, hbefore, hopened⟩ := Machine.underway_begun hagenda hbegun
    rw [hpolicy] at hunderway hopened
    rcases hunderway.play habove with hstill | hreturned
    · exact absurd hlength (Nat.ne_of_gt hstill.length_lt)
    · obtain ⟨body, closing, failures, result, hlog, hgiven, hends, hreplied⟩ := hreturned
      refine ⟨body, closing, failures, result, ⟨before, hbefore, ?_⟩, hgiven, hends, hreplied,
        ?_, hends.ok_iff, hends.error_iff, fun e he => hends.text he, fun f => rfl⟩
      · rw [List.nil_append] at hlog
        rw [hopened, hlog, List.append_assoc]
        rfl
      · intro body' given closing' later' hbody' hclosing' heq
        exact hgiven.unique hbody' hends.isClosing hclosing' heq

/-- A refresher that calls for another broadcast while it is stopped, and then fails. -/
def relapsing : Script :=
  .mk "relapsing" (some "f") (.mk [.broadcast .restart] (some (.stopFailed "f" "busy")))
    (.mk [] none) false

/-- Everybody is to be stopped, `relapsing` among them. -/
def relapsePlay : Play :=
  [.issue none (.scripted "r" relapsing), .perform, .issue none (.add "r"), .perform,
    .issue none (.broadcast .stop)].map fun mv => (⟨0⟩, .move mv)

/-- The warning of the outer broadcast comes after the whole of the inner one. -/
theorem broadcasts_bracketed_relapsing :
    let m := (Machine.new .isolate).played relapsePlay
    let called := m.turn ⟨0⟩ (.move .perform)
    let later := List.replicate 7 (⟨0⟩, .move .perform)
    (∃ body closing, ∃ failures : List Failure, ∃ result,
      (∃ before, Beside before ∧ m.logged ⟨0⟩ (.move .perform) ++ called.log later =
        before ++ .broadcastStarted .stop 1 .isolate :: (body ++ [closing])) ∧
      Surface .isolate body (failures.map (Failure.warning .stop)) ∧
        ∃ records, (called.played later).Replied none (records ++ [.event closing])
          (Cause.command.reply result) []) ∧
      called.log later =
        [.broadcastStarted .restart 1 .isolate, .broadcastCompleted .restart 1 0,
          .refresherFailed .stop 0 (some "f") (.stopFailed "f" "busy"),
          .broadcastCompleted .stop 1 1] := by
  intro m called later
  obtain ⟨-, hreturns⟩ :=
    (broadcasts_bracketed .isolate relapsePlay).calls none (.broadcast .stop) [] ⟨0⟩ _ rfl rfl
  obtain ⟨body, closing, failures, result, hcall⟩ := hreturns later (by decide) rfl
  exact ⟨⟨body, closing, failures, result, hcall.logged, hcall.given, hcall.replied⟩,
    by decide +kernel⟩

end PageRefresh.Session
