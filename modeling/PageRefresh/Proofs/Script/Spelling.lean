import PageRefresh.Proofs.Text.Blank
import PageRefresh.Script.Step

/-!
How steps are spelled.

A text spells a step if it is the step's verb, with a colon and a name after it where the verb takes
one, and white space around either (`Spelling`).  Reading a text undoes this: what is read is what
the text spells, which no text does in two ways, and a text that spells nothing is refused for what
stands before its first colon.
-/

namespace PageRefresh.Script

open PageRefresh.Text

/-! ## Verbs -/

/-- The texts that verbs are made of: without a colon, and without white space at their ends. -/
structure VerbText (cs : List Char) : Prop where
  nonempty : cs ≠ []
  trimmed : Trimmed cs
  colon : ':' ∉ cs

theorem NamedVerb.word_text (verb : NamedVerb) : VerbText verb.word.toList := by
  cases verb <;> exact ⟨by decide, by decide, by decide⟩

theorem BareVerb.word_text (verb : BareVerb) : VerbText verb.word.toList := by
  cases verb <;> exact ⟨by decide, by decide, by decide⟩

theorem NamedVerb.ofWord?_eq_some_iff {word : String} {verb : NamedVerb} :
    ofWord? word = some verb ↔ word = verb.word := by
  constructor
  · intro hfound
    have hword := List.find?_some hfound
    exact (beq_iff_eq.mp hword).symm
  · rintro rfl
    cases verb <;> decide

theorem BareVerb.ofWord?_eq_some_iff {word : String} {verb : BareVerb} :
    ofWord? word = some verb ↔ word = verb.word := by
  constructor
  · intro hfound
    have hword := List.find?_some hfound
    exact (beq_iff_eq.mp hword).symm
  · rintro rfl
    cases verb <;> decide

/-- No word is a verb of both kinds. -/
theorem NamedVerb.word_ne (verb : NamedVerb) (verb' : BareVerb) : verb.word ≠ verb'.word := by
  cases verb <;> cases verb' <;> decide

/-! ## The first colon -/

section SplitColon

variable {cs head rest : List Char}

theorem splitColon_append (hhead : ':' ∉ head) (rest : List Char) :
    splitColon (head ++ ':' :: rest) = (head, some rest) := by
  induction head with
  | nil => simp [splitColon]
  | cons c head ih =>
      rw [List.mem_cons, not_or] at hhead
      obtain ⟨hc, hhead⟩ := hhead
      simp [splitColon, Ne.symm hc, ih hhead]

theorem splitColon_of_not_mem (hcs : ':' ∉ cs) : splitColon cs = (cs, none) := by
  induction cs with
  | nil => rfl
  | cons c cs ih =>
      rw [List.mem_cons, not_or] at hcs
      obtain ⟨hc, hcs⟩ := hcs
      simp [splitColon, Ne.symm hc, ih hcs]

/-- A text has no colon, or a first one. -/
theorem splitColon_cases (cs : List Char) :
    (':' ∉ cs ∧ splitColon cs = (cs, none)) ∨
      ∃ head rest, ':' ∉ head ∧ cs = head ++ ':' :: rest ∧ splitColon cs = (head, some rest) := by
  by_cases hcolon : ':' ∈ cs
  · obtain ⟨head, rest, rfl, hhead⟩ := List.eq_append_cons_of_mem hcolon
    exact .inr ⟨head, rest, hhead, rfl, splitColon_append hhead rest⟩
  · exact .inl ⟨hcolon, splitColon_of_not_mem hcolon⟩

theorem splitColon_head (cs : List Char) : (splitColon cs).1 = cs.takeWhile (· != ':') := by
  induction cs with
  | nil => rfl
  | cons c cs ih =>
      by_cases hc : c = ':'
      · simp [splitColon, hc]
      · simp [splitColon, hc, ih]

end SplitColon

/-! ## Spellings -/

/-- The white space around the parts of a step. -/
structure Margins where
  beforeVerb : List Char
  afterVerb : List Char
  beforeName : List Char
  afterName : List Char

structure Margins.Blank (m : Margins) : Prop where
  beforeVerb : Text.Blank m.beforeVerb
  afterVerb : Text.Blank m.afterVerb
  beforeName : Text.Blank m.beforeName
  afterName : Text.Blank m.afterName

/-- The text spells the step, with these margins.  A name is not empty, begins and ends with
something else than white space, and may hold colons. -/
inductive Spelling : Step → Margins → List Char → Prop where
  | named (verb : NamedVerb) {name : String} {m : Margins} (hm : m.Blank) (hname : name ≠ "")
      (htrimmed : Trimmed name.toList) :
      Spelling (.named verb name) m
        (m.beforeVerb ++ verb.word.toList ++ m.afterVerb ++
          ':' :: (m.beforeName ++ name.toList ++ m.afterName))
  | bare (verb : BareVerb) {before after : List Char} (hbefore : Text.Blank before)
      (hafter : Text.Blank after) :
      Spelling (.bare verb) ⟨before, after, [], []⟩ (before ++ verb.word.toList ++ after)

/-- A verb in its margins has no colon. -/
theorem colon_not_mem {before word after : List Char} (hbefore : Text.Blank before)
    (hafter : Text.Blank after) (hword : VerbText word) : ':' ∉ before ++ word ++ after := by
  have hcolon : isBlank ':' = false := by decide
  simp only [List.mem_append, not_or]
  refine ⟨⟨fun hmem => ?_, hword.colon⟩, fun hmem => ?_⟩
  · exact absurd (hbefore ':' hmem) (by simp [hcolon])
  · exact absurd (hafter ':' hmem) (by simp [hcolon])

/-! ## Steps from their parts -/

namespace Step

theorem ofParts_named (verb : NamedVerb) (name : Option String) :
    ofParts verb.word name =
      match name with
      | none => .error .nameMissing
      | some name => if name = "" then .error .nameMissing else .ok (.named verb name) := by
  have hverb : NamedVerb.ofWord? verb.word = some verb := NamedVerb.ofWord?_eq_some_iff.mpr rfl
  cases name <;> simp only [ofParts, hverb]

theorem ofParts_bare (verb : BareVerb) (name : Option String) :
    ofParts verb.word name =
      match name with
      | none => .ok (.bare verb)
      | some _ => .error .nameUnexpected := by
  have hnone : NamedVerb.ofWord? verb.word = none := by
    rw [Option.eq_none_iff_forall_ne_some]
    intro verb' hsome
    exact verb'.word_ne verb (NamedVerb.ofWord?_eq_some_iff.mp hsome).symm
  have hverb : BareVerb.ofWord? verb.word = some verb := BareVerb.ofWord?_eq_some_iff.mpr rfl
  cases name <;> simp only [ofParts, hnone, hverb]

theorem ofParts_unknown {word : String} (hnamed : ∀ verb : NamedVerb, word ≠ verb.word)
    (hbare : ∀ verb : BareVerb, word ≠ verb.word) (name : Option String) :
    ofParts word name = .error .unknownVerb := by
  have hnone : NamedVerb.ofWord? word = none :=
    Option.eq_none_iff_forall_ne_some.mpr fun verb hsome =>
      hnamed verb (NamedVerb.ofWord?_eq_some_iff.mp hsome)
  have hnone' : BareVerb.ofWord? word = none :=
    Option.eq_none_iff_forall_ne_some.mpr fun verb hsome =>
      hbare verb (BareVerb.ofWord?_eq_some_iff.mp hsome)
  simp only [ofParts, hnone, hnone']

/-- Every word is a verb of one kind, or of the other, or none. -/
theorem word_cases (word : String) :
    (∃ verb : NamedVerb, word = verb.word) ∨ (∃ verb : BareVerb, word = verb.word) ∨
      ((∀ verb : NamedVerb, word ≠ verb.word) ∧ ∀ verb : BareVerb, word ≠ verb.word) := by
  by_cases hnamed : ∃ verb : NamedVerb, word = verb.word
  · exact .inl hnamed
  · by_cases hbare : ∃ verb : BareVerb, word = verb.word
    · exact .inr (.inl hbare)
    · exact .inr (.inr ⟨not_exists.mp hnamed, not_exists.mp hbare⟩)

/-- A step is made of a verb with its name, or of a verb that takes none. -/
theorem ofParts_ok {word : String} {name : Option String} {step : Step}
    (hok : ofParts word name = .ok step) :
    (∃ verb text, step = .named verb text ∧ word = verb.word ∧ name = some text ∧ text ≠ "") ∨
      ∃ verb, step = .bare verb ∧ word = verb.word ∧ name = none := by
  rcases word_cases word with ⟨verb, rfl⟩ | ⟨verb, rfl⟩ | ⟨hnamed, hbare⟩
  · rw [ofParts_named] at hok
    split at hok
    · contradiction
    · rename_i text
      split at hok
      · contradiction
      · rename_i htext
        exact .inl ⟨verb, text, (Except.ok.inj hok).symm, rfl, rfl, htext⟩
  · rw [ofParts_bare] at hok
    split at hok
    · exact .inr ⟨verb, (Except.ok.inj hok).symm, rfl, rfl⟩
    · contradiction
  · rw [ofParts_unknown hnamed hbare] at hok
    contradiction

/-- The verb alone decides why a step is refused. -/
theorem ofParts_error {word : String} {name : Option String} {fault : StepFault}
    (herror : ofParts word name = .error fault) :
    (fault = .nameMissing ↔ ∃ verb : NamedVerb, word = verb.word) ∧
      (fault = .nameUnexpected ↔ ∃ verb : BareVerb, word = verb.word) ∧
      (fault = .unknownVerb ↔ (∀ verb : NamedVerb, word ≠ verb.word) ∧
        ∀ verb : BareVerb, word ≠ verb.word) := by
  rcases word_cases word with ⟨verb, rfl⟩ | ⟨verb, rfl⟩ | ⟨hnamed, hbare⟩
  · obtain rfl : fault = .nameMissing := by
      rw [ofParts_named] at herror
      split at herror
      · exact (Except.error.inj herror).symm
      · split at herror
        · exact (Except.error.inj herror).symm
        · contradiction
    simp [verb.word_ne]
  · obtain rfl : fault = .nameUnexpected := by
      rw [ofParts_bare] at herror
      split at herror
      · contradiction
      · exact (Except.error.inj herror).symm
    have hnamed : ∀ verb' : NamedVerb, verb.word ≠ verb'.word :=
      fun verb' hsame => verb'.word_ne verb hsame.symm
    simp [hnamed]
  · obtain rfl : fault = .unknownVerb := by
      rw [ofParts_unknown hnamed hbare] at herror
      exact (Except.error.inj herror).symm
    simp [hnamed, hbare]

end Step

/-! ## Reading -/

/-- The step that a text is read as, or the fault in it. -/
def Step.parse (cs : List Char) : Except StepFault Step :=
  Step.ofParts (String.ofList (trimBlanks (splitColon cs).1))
    ((splitColon cs).2.map fun name => String.ofList (trimBlanks name))

theorem read_eq (s : String) :
    Step.read s =
      match Step.parse s.toList with
      | .ok step => .ok step
      | .error fault => .error ⟨s, fault⟩ := by
  cases hparse : Step.parse s.toList <;> simp only [Step.parse] at hparse <;>
    simp only [Step.read, hparse]

theorem read_eq_ok_iff {s : String} {step : Step} :
    Step.read s = .ok step ↔ Step.parse s.toList = .ok step := by
  rw [read_eq]
  cases Step.parse s.toList <;> simp

theorem read_eq_error_iff {s : String} {e : StepError} :
    Step.read s = .error e ↔ e.input = s ∧ Step.parse s.toList = .error e.fault := by
  rw [read_eq]
  cases Step.parse s.toList with
  | ok step => simp
  | error fault =>
      obtain ⟨input, fault'⟩ := e
      simp [eq_comm]

/-- What is spelled is read. -/
theorem Spelling.parse {step : Step} {m : Margins} {cs : List Char}
    (hspelling : Spelling step m cs) : Step.parse cs = .ok step := by
  cases hspelling with
  | @named verb name m hm hname htrimmed =>
      have hcolon := colon_not_mem hm.beforeVerb hm.afterVerb verb.word_text
      rw [Step.parse, splitColon_append hcolon]
      simp only [Option.map_some]
      rw [trimBlanks_parts hm.beforeVerb hm.afterVerb verb.word_text.trimmed,
        trimBlanks_parts hm.beforeName hm.afterName htrimmed, String.ofList_toList,
        String.ofList_toList, Step.ofParts_named]
      exact if_neg hname
  | @bare verb before after hbefore hafter =>
      have hcolon := colon_not_mem hbefore hafter verb.word_text
      rw [Step.parse, splitColon_of_not_mem hcolon]
      simp only [Option.map_none]
      rw [trimBlanks_parts hbefore hafter verb.word_text.trimmed, String.ofList_toList,
        Step.ofParts_bare]

/-- What is read is spelled. -/
theorem exists_spelling {cs : List Char} {step : Step} (hparse : Step.parse cs = .ok step) :
    ∃ m, Spelling step m cs := by
  rw [Step.parse] at hparse
  have hok := Step.ofParts_ok hparse
  rcases splitColon_cases cs with ⟨-, hsplit⟩ | ⟨head, rest, -, hcs, hsplit⟩
  · rw [hsplit] at hok
    rcases hok with ⟨verb, text, -, -, hnone, -⟩ | ⟨verb, rfl, hword, -⟩
    · contradiction
    · obtain ⟨before, after, hbefore, hafter, -, hparts⟩ := exists_parts cs
      have htrim : trimBlanks cs = verb.word.toList := by rw [← hword, String.toList_ofList]
      rw [hparts, htrim]
      exact ⟨_, .bare verb hbefore hafter⟩
  · rw [hsplit] at hok
    rcases hok with ⟨verb, text, rfl, hword, hname, htext⟩ | ⟨verb, -, -, hsome⟩
    · obtain ⟨beforeVerb, afterVerb, hbeforeVerb, hafterVerb, -, hhead⟩ := exists_parts head
      obtain ⟨beforeName, afterName, hbeforeName, hafterName, htrimmed, hrest⟩ := exists_parts rest
      have hverb : trimBlanks head = verb.word.toList := by rw [← hword, String.toList_ofList]
      have hsame : trimBlanks rest = text.toList := by
        rw [← Option.some.inj hname, String.toList_ofList]
      rw [hverb] at hhead
      rw [hsame] at hrest htrimmed
      rw [hcs, hhead, hrest]
      exact ⟨⟨beforeVerb, afterVerb, beforeName, afterName⟩,
        .named verb ⟨hbeforeVerb, hafterVerb, hbeforeName, hafterName⟩ htext htrimmed⟩
    · contradiction

theorem Spelling.of_named {verb : NamedVerb} {name : String} {m : Margins} {cs : List Char}
    (hspelling : Spelling (.named verb name) m cs) :
    m.Blank ∧ name ≠ "" ∧ Trimmed name.toList ∧
      cs = m.beforeVerb ++ verb.word.toList ++ m.afterVerb ++
        ':' :: (m.beforeName ++ name.toList ++ m.afterName) := by
  cases hspelling with
  | named _ hm hname htrimmed => exact ⟨hm, hname, htrimmed, rfl⟩

theorem Spelling.of_bare {verb : BareVerb} {m : Margins} {cs : List Char}
    (hspelling : Spelling (.bare verb) m cs) :
    Text.Blank m.beforeVerb ∧ Text.Blank m.afterVerb ∧ m = ⟨m.beforeVerb, m.afterVerb, [], []⟩ ∧
      cs = m.beforeVerb ++ verb.word.toList ++ m.afterVerb := by
  cases hspelling with
  | bare _ hbefore hafter => exact ⟨hbefore, hafter, rfl, rfl⟩

/-- No text spells two steps, or one step with different margins. -/
theorem Spelling.unique {step step' : Step} {m m' : Margins} {cs : List Char}
    (hspelling : Spelling step m cs) (hspelling' : Spelling step' m' cs) :
    step = step' ∧ m = m' := by
  obtain rfl : step = step' :=
    Except.ok.inj (hspelling.parse.symm.trans hspelling'.parse)
  refine ⟨rfl, ?_⟩
  cases step with
  | named verb name =>
      obtain ⟨hm, hname, htrimmed, hcs⟩ := hspelling.of_named
      obtain ⟨hm', -, -, hcs'⟩ := hspelling'.of_named
      obtain ⟨beforeVerb, afterVerb, beforeName, afterName⟩ := m
      obtain ⟨beforeVerb', afterVerb', beforeName', afterName'⟩ := m'
      have hword := verb.word_text
      have hsplit := splitColon_append (colon_not_mem hm.beforeVerb hm.afterVerb hword)
        (beforeName ++ name.toList ++ afterName)
      rw [← hcs, hcs', splitColon_append (colon_not_mem hm'.beforeVerb hm'.afterVerb hword),
        Prod.mk.injEq, Option.some.injEq] at hsplit
      have hletters : name.toList ≠ [] := by simpa using hname
      obtain ⟨rfl, -, rfl⟩ := parts_unique hword.nonempty hm'.beforeVerb hm'.afterVerb
        hword.trimmed hm.beforeVerb hm.afterVerb hword.trimmed hsplit.1
      obtain ⟨rfl, -, rfl⟩ := parts_unique hletters hm'.beforeName hm'.afterName htrimmed
        hm.beforeName hm.afterName htrimmed hsplit.2
      rfl
  | bare verb =>
      obtain ⟨hbefore, hafter, hm, hcs⟩ := hspelling.of_bare
      obtain ⟨hbefore', hafter', hm', hcs'⟩ := hspelling'.of_bare
      have hword := verb.word_text
      obtain ⟨hsame, -, hsame'⟩ := parts_unique hword.nonempty hbefore hafter hword.trimmed hbefore'
        hafter' hword.trimmed (hcs.symm.trans hcs')
      rw [hm, hm', hsame, hsame']

/-- The shortest spelling has no margins. -/
theorem Spelling.write {step : Step} {m : Margins} {cs : List Char}
    (hspelling : Spelling step m cs) : Spelling step ⟨[], [], [], []⟩ step.write.toList := by
  have hnone : Text.Blank [] := by simp [Text.Blank]
  cases hspelling with
  | @named verb name m hm hname htrimmed =>
      have hmargins : Margins.Blank ⟨[], [], [], []⟩ := ⟨hnone, hnone, hnone, hnone⟩
      simpa [Step.write] using Spelling.named verb hmargins hname htrimmed
  | bare verb hbefore hafter => simpa [Step.write] using Spelling.bare verb hnone hnone

/-! ## The grammar of steps -/

theorem StepFault.message_eq_iff (fault : StepFault) :
    (fault.message = "expected a name after ':'" ↔ fault = .nameMissing) ∧
      (fault.message = "step takes no argument" ↔ fault = .nameUnexpected) ∧
      (fault.message = "unknown step" ↔ fault = .unknownVerb) := by
  cases fault <;> decide

/-- A text is refused for what stands before its first colon, less the white space. -/
structure RefusedFor (s : String) (e : StepError) : Prop where
  input : e.input = s
  head : ∃ before head after, Text.Blank before ∧ Text.Blank after ∧ Trimmed head ∧
    s.toList.takeWhile (· != ':') = before ++ head ++ after ∧
    (e.fault.message = "expected a name after ':'" ↔ ∃ verb : NamedVerb, head = verb.word.toList) ∧
    (e.fault.message = "step takes no argument" ↔ ∃ verb : BareVerb, head = verb.word.toList) ∧
    (e.fault.message = "unknown step" ↔ (∀ verb : NamedVerb, head ≠ verb.word.toList) ∧
      ∀ verb : BareVerb, head ≠ verb.word.toList)

/-- Which step a text is read as, if it is read as one. -/
structure Grammar (s : String) : Prop where
  /-- What is read is what the text spells, ... -/
  read_iff : ∀ step, Step.read s = .ok step ↔ ∃ m, Spelling step m s.toList
  /-- ... and it does so in one way. -/
  unique : ∀ step step' m m', Spelling step m s.toList → Spelling step' m' s.toList →
    step = step' ∧ m = m'
  refused : ∀ e, Step.read s = .error e → RefusedFor s e
  /-- The written form of what is read is read as the same. -/
  written : ∀ step, Step.read s = .ok step → Step.read step.write = .ok step

/-- The texts that are read as a step, of all texts there are. -/
theorem step_grammar (s : String) : Grammar s := by
  constructor
  case read_iff =>
    intro step
    rw [read_eq_ok_iff]
    exact ⟨exists_spelling, fun ⟨_, hspelling⟩ => hspelling.parse⟩
  case unique => exact fun _ _ _ _ hspelling hspelling' => hspelling.unique hspelling'
  case refused =>
    intro e herror
    obtain ⟨hinput, hparse⟩ := read_eq_error_iff.mp herror
    obtain ⟨before, after, hbefore, hafter, htrimmed, hparts⟩ :=
      exists_parts (s.toList.takeWhile (· != ':'))
    refine ⟨hinput, before, _, after, hbefore, hafter, htrimmed, hparts, ?_⟩
    rw [Step.parse, splitColon_head] at hparse
    have hword : ∀ (head : List Char) (word : String),
        String.ofList head = word ↔ head = word.toList := by
      intro head word
      constructor
      · rintro rfl
        exact String.toList_ofList.symm
      · rintro rfl
        exact String.ofList_toList
    have hfault := Step.ofParts_error hparse
    have hmessage := e.fault.message_eq_iff
    simp only [ne_eq, hword] at hfault
    rw [hmessage.1, hmessage.2.1, hmessage.2.2]
    exact hfault
  case written =>
    intro step hread
    obtain ⟨m, hspelling⟩ := exists_spelling (read_eq_ok_iff.mp hread)
    exact read_eq_ok_iff.mpr hspelling.write.parse

/-- White space around the parts, a colon in the name, and inner white space that counts. -/
theorem step_grammar_spacious :
    Step.read "\u3000add\u0085: a: b\t" = .ok (.named .add "a: b") ∧
      Step.read "add:a: b" = .ok (.named .add "a: b") := by
  have hgrammar := step_grammar "\u3000add\u0085: a: b\t"
  have hmargins : Margins.Blank ⟨['\u3000'], ['\u0085'], [' '], ['\t']⟩ :=
    ⟨by decide, by decide, by decide, by decide⟩
  have hok := (hgrammar.read_iff _).mpr
    ⟨_, Spelling.named .add hmargins (by decide : "a: b" ≠ "") (by decide)⟩
  have hwritten : (Step.named .add "a: b").write = "add:a: b" := by
    decide
  exact ⟨hok, hwritten ▸ hgrammar.written _ hok⟩

/-- A verb without a name takes no colon either. -/
example : Step.read "clear:" = .error ⟨"clear:", .nameUnexpected⟩ := by decide

end PageRefresh.Script
