import ApiTypes.Error

/-!
The lines that a run reports beside its output.
-/

namespace ApiTypes.CommandLine

inductive Reporter where
  | program
  | loader
  | references
  | analyzer
  | declarations
  | generator
  | formatter
  deriving DecidableEq, Repr

def Reporter.name : Reporter → String
  | .program => "openapi_to_ts.openapi_to_ts"
  | .loader => "openapi_to_ts.loader"
  | .references => "openapi_to_ts.pipeline.analyzer.reference_resolver"
  | .analyzer => "openapi_to_ts.pipeline.analyzer.analyzer"
  | .declarations => "openapi_to_ts.pipeline.backends.typescript_backend"
  | .generator => "openapi_to_ts.pipeline.generator"
  | .formatter => "openapi_to_ts.pipeline.formatters.prettier_formatter"

/-- A reported line. Details are reported only to a verbose run. -/
inductive LogLine where
  | detail (reporter : Reporter) (message : String)
  | warning (reporter : Reporter) (message : String)
  deriving DecidableEq, Repr

namespace LogLine

def isDetail : LogLine → Bool
  | .detail .. => true
  | .warning .. => false

def text : LogLine → String
  | .detail reporter message => "DEBUG " ++ reporter.name ++ " " ++ message
  | .warning reporter message => "WARNING " ++ reporter.name ++ " " ++ message

end LogLine

end ApiTypes.CommandLine
