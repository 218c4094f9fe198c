import DiagnosticWatch.Text.Search

/-!
# Phases of a compilation

A compiler in watch mode announces when a pass over its files starts and when it is complete. The
announcements are recognised by their phrases, in any ASCII letter case; a message with phrases of
both kinds completes the pass.
-/

namespace DiagnosticWatch

/-- What a status message means for the pass. -/
inductive PhaseSignal
  | passStarted
  | passCompleted
  | other
  deriving DecidableEq, Repr, Inhabited

namespace PhaseSignal

private def mentions (phrase : String) (message : List Char) : Bool :=
  Text.occursIn phrase.toList message

def classify (message : String) : PhaseSignal :=
  let m := Text.lowerAscii message.toList
  if mentions "watching for file changes" m ||
      ("found ".toList.isPrefixOf m && mentions " error" m) then
    passCompleted
  else if mentions "starting compilation" m || mentions "starting incremental compilation" m ||
      mentions "file change detected" m then
    passStarted
  else other

end PhaseSignal

end DiagnosticWatch
