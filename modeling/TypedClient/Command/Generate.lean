import TypedClient.Command.ClientFile
import TypedClient.Command.Progress
import TypedClient.Document.Loading

/-!
# Generating a client on a host

A run loads the document, generates the client and formats all of its files before the
first file is written. So a run that fails before writing leaves the files as they were.
-/

namespace TypedClient.Command

variable [Text.Conversions] [MediaTypeParser] {m : Type → Type} [Monad m]

/-- The format of a reply: what the server announces, else what the address ends in
before its query and its fragment. -/
def Reply.format (reply : Reply) (address : String) : DocumentFormat :=
  (reply.contentType.bind DocumentFormat.ofContentType?).getD
    (.ofPath (String.ofList (address.toList.takeWhile fun c => c != '?' && c != '#')))

/-- Opens a source: the format of its document, and the bytes. -/
def openSource (host : Host m) (source : DocumentSource) :
    ExceptT Failure m (DocumentFormat × List UInt8) := do
  match source with
  | .url address =>
      let reply ← orFail (.notFetched address) (host.fetch address)
      return (reply.format address, reply.body)
  | .file path =>
      let bytes ← orFail (.unreadableFile path) (host.readFile path)
      return (.ofPath path, bytes)

/-- Loads the document of a source. -/
def loadDocument (host : Host m) (source : DocumentSource) :
    ExceptT Failure m ApiDocument := do
  let (format, bytes) ← openSource host source
  ExceptT.mk (pure ((ApiDocument.ofBytes format bytes).mapError .load))

/-- How a run of `generate` reports its progress. A quiet run reports nothing. -/
structure Reporter (m : Type → Type) where
  host : Host m
  palette : Palette
  verbose : Bool
  quiet : Bool

namespace Reporter

def unlessQuiet (reporter : Reporter m) (report : m Unit) : m Unit :=
  if reporter.quiet then pure () else report

def announce (reporter : Reporter m) (message : String) : m Unit :=
  reporter.unlessQuiet do
    reporter.host.printLine
      (reporter.palette.timedLine .primary (← reporter.host.timestamp) message)

/-- Reports the counts, and the warnings apart from all other messages. -/
def reportStats (reporter : Reporter m) (stats : GenerationStats) : m Unit :=
  reporter.unlessQuiet do
    (reporter.palette.statisticsLines reporter.verbose stats).forM reporter.host.printLine
    if !stats.warnings.isEmpty then
      reporter.host.printLine ""
      (stats.warnings.map reporter.palette.warningLine).forM reporter.host.printErrorLine

def reportWritten (reporter : Reporter m) (paths : List String) : m Unit :=
  if reporter.verbose then
    (paths.map reporter.palette.writtenLine).forM reporter.host.printLine
  else
    pure ()

def reportSuccess (reporter : Reporter m) : m Unit :=
  reporter.unlessQuiet do
    reporter.host.printLine ""
    reporter.host.printLine
      (reporter.palette.timedLine .success (← reporter.host.timestamp) successMessage)

end Reporter

/-- Everything that comes before the first file is written: the files of the client,
formatted. -/
def prepare (reporter : Reporter m) (configuration : Configuration) :
    ExceptT Failure m (List ClientFile) := do
  reporter.announce (loadingMessage configuration.source.shown)
  let document ← loadDocument reporter.host configuration.source
  reporter.announce (generatingMessage document.info.title)
  let client ←
    ExceptT.mk (pure ((document.generate configuration.options).mapError .unboundOperation))
  reporter.reportStats client.stats
  (filesOf client).mapM (formatFile reporter.host configuration)

/-- Generates the client that a configuration describes. -/
def generate (host : Host m) (palette : Palette) (configuration : Configuration) :
    ExceptT Failure m Unit := do
  let reporter : Reporter m := ⟨host, palette, configuration.verbose, configuration.quiet⟩
  let files ← prepare reporter configuration
  reporter.announce (writingMessage configuration.outputDirectory)
  let written ← writeFiles host configuration.outputDirectory files
  reporter.reportWritten written
  reporter.reportSuccess

end TypedClient.Command
