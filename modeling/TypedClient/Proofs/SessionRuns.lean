import Mathlib
import TypedClient.Command.Generate
import TypedClient.Command.Session
import TypedClient.Proofs.Attempts

/-!
# Runs before the first write

Until files are written, a run reads the disk, asks servers and other programs, and prints.
So what it comes to does not depend on what was printed before, and all else stays as it is.
-/

namespace TypedClient.Command

namespace Session

variable {α β : Type}

theorem run_bind (action : ExceptT Failure (StateM Session) α)
    (next : α → ExceptT Failure (StateM Session) β) (session : Session) :
    (action >>= next).run session =
      match action.run session with
      | (.ok answer, after) => (next answer).run after
      | (.error failure, after) => (.error failure, after) := by
  change (ExceptT.bindCont next (action.run session).1).run (action.run session).2 = _
  cases result : action.run session with
  | mk answer after => cases answer <;> rfl

theorem run_orFail {ε : Type} (failure : ε → Failure)
    (service : StateM Session (Except ε α)) (session : Session) :
    (orFail failure service).run session =
      ((service session).1.mapError failure, (service session).2) := by
  unfold orFail
  simp only [ExceptT.run_mk, bind, StateT.bind]
  cases service session with
  | mk answer after => cases answer <;> rfl

variable {session : Session}

/-- An action that does no more than print, and gives an answer whatever was printed
before. -/
def OnlyPrints (session : Session) (action : StateM Session α) (answer : α) : Prop :=
  ∀ before beforeErrors, ∃ printed printedErrors,
    action { session with printed := before, printedErrors := beforeErrors } =
      (answer, { session with printed, printedErrors })

theorem onlyPrints_pure (answer : α) : OnlyPrints session (pure answer) answer :=
  fun _ _ => ⟨_, _, rfl⟩

theorem OnlyPrints.bind {action : StateM Session α} {next : α → StateM Session β} {answer : α}
    {result : β} (first : OnlyPrints session action answer)
    (second : OnlyPrints session (next answer) result) :
    OnlyPrints session (action >>= next) result := by
  intro before beforeErrors
  obtain ⟨printed, printedErrors, firstEq⟩ := first before beforeErrors
  obtain ⟨allPrinted, allPrintedErrors, secondEq⟩ := second printed printedErrors
  refine ⟨allPrinted, allPrintedErrors, ?_⟩
  change next (action _).1 (action _).2 = _
  rw [firstEq, secondEq]

theorem onlyPrints_forM {print : String → StateM Session Unit}
    (prints : ∀ line, OnlyPrints session (print line) ()) (lines : List String) :
    OnlyPrints session (lines.forM print) () := by
  induction lines with
  | nil => exact onlyPrints_pure ()
  | cons line rest ih => exact (prints line).bind ih

theorem onlyPrints_printLine (line : String) : OnlyPrints session (host.printLine line) () :=
  fun _ _ => ⟨_, _, rfl⟩

theorem onlyPrints_printErrorLine (line : String) :
    OnlyPrints session (host.printErrorLine line) () :=
  fun _ _ => ⟨_, _, rfl⟩

theorem OnlyPrints.lift {report : StateM Session Unit} (prints : OnlyPrints session report ()) :
    OnlyPrints session (liftM report : ExceptT Failure (StateM Session) Unit).run (.ok ()) := by
  intro before beforeErrors
  obtain ⟨printed, printedErrors, reportEq⟩ := prints before beforeErrors
  refine ⟨printed, printedErrors, ?_⟩
  change (Except.ok (report _).1, (report _).2) = _
  rw [reportEq]

/-- A step that fails ends the run, and one that succeeds is followed by the next. -/
theorem OnlyPrints.andThen {action : ExceptT Failure (StateM Session) α}
    {next : α → ExceptT Failure (StateM Session) β} {answer : Except Failure α}
    {answers : α → Except Failure β} (first : OnlyPrints session action.run answer)
    (others : ∀ value, OnlyPrints session (next value).run (answers value)) :
    OnlyPrints session (action >>= next).run (answer.bind answers) := by
  intro before beforeErrors
  obtain ⟨printed, printedErrors, firstEq⟩ := first before beforeErrors
  have bindEq := run_bind action next
    { session with printed := before, printedErrors := beforeErrors }
  rw [firstEq] at bindEq
  cases answer with
  | error failure => exact ⟨printed, printedErrors, bindEq⟩
  | ok value =>
      obtain ⟨allPrinted, allPrintedErrors, nextEq⟩ := others value printed printedErrors
      exact ⟨allPrinted, allPrintedErrors, bindEq.trans nextEq⟩

theorem OnlyPrints.thenStep {report : StateM Session Unit}
    {next : ExceptT Failure (StateM Session) α} {answer : Except Failure α}
    (prints : OnlyPrints session report ()) (second : OnlyPrints session next.run answer) :
    OnlyPrints session (do liftM report; next : ExceptT Failure (StateM Session) α).run answer :=
  prints.lift.andThen fun _ => second

theorem onlyPrints_orFail {ε : Type} {failureOf : ε → Failure}
    {service : StateM Session (Except ε α)} {answer : Except ε α}
    (asked : OnlyPrints session service answer) :
    OnlyPrints session (orFail failureOf service).run (answer.mapError failureOf) := by
  intro before beforeErrors
  obtain ⟨printed, printedErrors, askedEq⟩ := asked before beforeErrors
  refine ⟨printed, printedErrors, ?_⟩
  rw [run_orFail, askedEq]

theorem onlyPrints_mapM {step : α → ExceptT Failure (StateM Session) β}
    {answer : α → Except Failure β}
    (steps : ∀ item, OnlyPrints session (step item).run (answer item)) (items : List α) :
    OnlyPrints session (items.mapM step).run (items.mapM answer) := by
  induction items with
  | nil => exact onlyPrints_pure (Except.ok [])
  | cons item rest ih =>
      rw [List.mapM_cons, List.mapM_cons]
      exact (steps item).andThen fun _ => ih.andThen fun _ => onlyPrints_pure (Except.ok _)

/-- The text that a formatter makes of code. -/
def formattedText (session : Session) (formatter : Formatter) (ending : LineEnding)
    (code : String) : Except FormattingFault String :=
  match formatter with
  | .builtin => .ok (Layout.normalize ending code)
  | .prettier program =>
      match session.runProgram program (prettierArguments ending) code with
      | .error error => .error (.notStarted program error)
      | .ok result => result.text

def formattedFile (session : Session) (configuration : Configuration) (file : ClientFile) :
    Except Failure ClientFile :=
  match session.formattedText configuration.formatter configuration.lineEnding file.contents with
  | .ok contents => .ok { file with contents }
  | .error fault => .error (.formatting file.path fault)

variable [MediaTypeParser]

/-- The format and the bytes of what a source leads to. -/
def opened (session : Session) : DocumentSource → Except Failure (DocumentFormat × List UInt8)
  | .url address => ((session.network address).mapError (.notFetched address)).bind fun reply =>
      .ok (reply.format address, reply.body)
  | .file path => ((session.disk.readFile path).mapError (.unreadableFile path)).bind fun bytes =>
      .ok (.ofPath path, bytes)

def document (session : Session) (source : DocumentSource) : Except Failure ApiDocument :=
  (session.opened source).bind fun opened =>
    (ApiDocument.ofBytes opened.1 opened.2).mapError .load

variable [Text.Conversions]

def client (session : Session) (configuration : Configuration) : Except Failure GeneratedClient :=
  (session.document configuration.source).bind fun document =>
    (document.generate configuration.options).mapError .unboundOperation

/-- The files of a client, formatted and not yet written. -/
def files (session : Session) (configuration : Configuration) : Except Failure (List ClientFile) :=
  (session.client configuration).bind fun client =>
    (filesOf client).mapM (session.formattedFile configuration)

/-- With the built-in formatter, the files depend on nothing but the source. -/
theorem files_eq_of_opened {session other : Session} {configuration : Configuration}
    (builtin : configuration.formatter = .builtin)
    (sameSource : other.opened configuration.source = session.opened configuration.source) :
    other.files configuration = session.files configuration := by
  have sameFormat : other.formattedFile configuration = session.formattedFile configuration := by
    funext file
    rw [formattedFile, formattedFile, builtin]
    rfl
  rw [files, files, client, client, document, document, sameSource, sameFormat]

end Session

open Session

variable {session : Session} {palette : Palette} {verbose quiet : Bool}

namespace Reporter

theorem onlyPrints_unlessQuiet {reporter : Reporter (StateM Session)}
    {report : StateM Session Unit} (prints : OnlyPrints session report ()) :
    OnlyPrints session (reporter.unlessQuiet report) () := by
  unfold unlessQuiet
  split
  · exact onlyPrints_pure ()
  · exact prints

theorem onlyPrints_announce (message : String) :
    OnlyPrints session (announce ⟨Session.host, palette, verbose, quiet⟩ message) () :=
  onlyPrints_unlessQuiet fun _ _ => ⟨_, _, rfl⟩

theorem onlyPrints_reportStats (stats : GenerationStats) :
    OnlyPrints session (reportStats ⟨Session.host, palette, verbose, quiet⟩ stats) () := by
  refine onlyPrints_unlessQuiet ((onlyPrints_forM onlyPrints_printLine _).bind ?_)
  split
  · exact (onlyPrints_printLine "").bind (onlyPrints_forM onlyPrints_printErrorLine _)
  · exact onlyPrints_pure ()

theorem onlyPrints_reportWritten (paths : List String) :
    OnlyPrints session (reportWritten ⟨Session.host, palette, verbose, quiet⟩ paths) () := by
  unfold reportWritten
  split
  · exact onlyPrints_forM onlyPrints_printLine _
  · exact onlyPrints_pure ()

theorem onlyPrints_reportSuccess :
    OnlyPrints session (reportSuccess ⟨Session.host, palette, verbose, quiet⟩) () :=
  onlyPrints_unlessQuiet fun _ _ => ⟨_, _, rfl⟩

end Reporter

theorem onlyPrints_format (formatter : Formatter) (ending : LineEnding) (code : String) :
    OnlyPrints session (formatter.format Session.host ending code)
      (session.formattedText formatter ending code) := by
  cases formatter with
  | builtin => exact onlyPrints_pure _
  | prettier program =>
      have answered : OnlyPrints session
          (Session.host.runProgram program (prettierArguments ending) code)
          (session.runProgram program (prettierArguments ending) code) := fun _ _ => ⟨_, _, rfl⟩
      refine answered.bind ?_
      simp only [formattedText]
      cases session.runProgram program (prettierArguments ending) code
      · exact onlyPrints_pure _
      · exact onlyPrints_pure _

theorem onlyPrints_formatFile (configuration : Configuration) (file : ClientFile) :
    OnlyPrints session (formatFile Session.host configuration file).run
      (session.formattedFile configuration file) := by
  refine (onlyPrints_format configuration.formatter configuration.lineEnding file.contents).bind ?_
  unfold formattedFile
  cases session.formattedText configuration.formatter configuration.lineEnding file.contents
  · exact onlyPrints_pure _
  · exact onlyPrints_pure _

variable [MediaTypeParser]

theorem onlyPrints_openSource (source : DocumentSource) :
    OnlyPrints session (openSource Session.host source).run (session.opened source) := by
  cases source with
  | url address =>
      have asked : OnlyPrints session (Session.host.fetch address) (session.network address) :=
        fun _ _ => ⟨_, _, rfl⟩
      exact (onlyPrints_orFail asked).andThen fun reply =>
        onlyPrints_pure (Except.ok (reply.format address, reply.body))
  | file path =>
      have read : OnlyPrints session (Session.host.readFile path) (session.disk.readFile path) :=
        fun _ _ => ⟨_, _, rfl⟩
      exact (onlyPrints_orFail read).andThen fun bytes =>
        onlyPrints_pure (Except.ok (DocumentFormat.ofPath path, bytes))

theorem onlyPrints_loadDocument (source : DocumentSource) :
    OnlyPrints session (loadDocument Session.host source).run (session.document source) :=
  (onlyPrints_openSource source).andThen fun _ => onlyPrints_pure _

/-- What comes before the first file is written. -/
theorem onlyPrints_prepare [Text.Conversions] (configuration : Configuration) :
    OnlyPrints session (prepare ⟨Session.host, palette, verbose, quiet⟩ configuration).run
      (session.files configuration) := by
  have inOrder : session.files configuration =
      (session.document configuration.source).bind fun document =>
        ((document.generate configuration.options).mapError .unboundOperation).bind fun client =>
          (filesOf client).mapM (session.formattedFile configuration) := by
    unfold files client
    cases session.document configuration.source <;> rfl
  rw [inOrder]
  exact (Reporter.onlyPrints_announce _).thenStep
    ((onlyPrints_loadDocument configuration.source).andThen fun document =>
      (Reporter.onlyPrints_announce _).thenStep
        (OnlyPrints.andThen (onlyPrints_pure _) fun client =>
          (Reporter.onlyPrints_reportStats client.stats).thenStep
            (onlyPrints_mapM (onlyPrints_formatFile configuration) _)))

end TypedClient.Command
