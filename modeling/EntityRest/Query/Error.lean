/-!
# Query errors

Why a request is refused. Every error names the parameter at fault.
-/

namespace EntityRest

/-- What is wrong with a parameter. -/
inductive QueryFault where
  | unknownField
  | unknownOperator
  | invalidNumber
  | invalidValue
  | unknownInclude
  | unknownParam
  | malformed
  | unsupportedOperator
deriving DecidableEq

/-- A fault and the parameter that has it. -/
structure QueryError where
  fault : QueryFault
  key : String
deriving DecidableEq

namespace QueryFault

/-- The wording before and after the name of the parameter. -/
def wording : QueryFault → String × String
  | unknownField => ("unknown field in '", "'")
  | unknownOperator => ("unknown operator in '", "'")
  | invalidNumber => ("'", "' must be a positive integer")
  | invalidValue => ("invalid value for '", "'")
  | unknownInclude => ("unknown array field in '", "'")
  | unknownParam => ("unknown query parameter '", "'")
  | malformed => ("malformed expression in '", "'")
  | unsupportedOperator => ("operator in '", "' is not supported by this database")

/-- The key under which catalogs hold the wording. -/
def catalogKey : QueryFault → String
  | unknownField => "query.unknown_field"
  | unknownOperator => "query.unknown_operator"
  | invalidNumber => "query.invalid_number"
  | invalidValue => "query.invalid_value"
  | unknownInclude => "query.unknown_include"
  | unknownParam => "query.unknown_param"
  | malformed => "query.malformed"
  | unsupportedOperator => "query.unsupported_operator"

end QueryFault

def QueryError.message (e : QueryError) : String :=
  e.fault.wording.1 ++ e.key ++ e.fault.wording.2

end EntityRest
