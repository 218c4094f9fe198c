import DiagnosticWatch.Config

/-!
# Errors

What can go wrong outside a query. A look-up that finds nothing is no error. A missing compiler
configuration concerns one project only, and an unreadable manifest only the declaration it belongs
to.
-/

namespace DiagnosticWatch

inductive WatchError
  | configuration (project reason : String)
  | scan (path : Path) (reason : String)
  | invariant (reason : String)
  | pattern (source reason : String)
  | io (e : ReadError)
  | json (r : Json.Rejection)
  deriving Inhabited

namespace WatchError

def message : WatchError → String
  | configuration project reason => "project '" ++ project ++ "': " ++ reason
  | scan path reason => "failed to read manifest " ++ path.text ++ ": " ++ reason
  | invariant reason => "invariant violated: " ++ reason
  | pattern source reason => "invalid pattern '" ++ source ++ "': " ++ reason
  | io e => e.message
  | json r => r.message

/-- The error that a failure to load the configuration amounts to. -/
def ofLoad : WatchConfig.LoadError → WatchError
  | .unreadable e => io e
  | .malformed r => json r

end WatchError

end DiagnosticWatch
