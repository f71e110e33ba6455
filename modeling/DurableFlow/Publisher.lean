import DurableFlow.Record

/-! # Publishers of records -/

namespace DurableFlow

inductive PublishError where
  | unavailable (reason : String)
  | rejected (reason : String)
  deriving DecidableEq, Repr

def PublishError.message : PublishError → String
  | .unavailable reason => "transport unavailable: " ++ reason
  | .rejected reason => "record rejected: " ++ reason

/-- What the engine needs of a publisher with the internal state `π`: to take over the records of
one commit, in order. -/
structure Publisher (π : Type) where
  publish : List Record → π → Except PublishError Unit × π

/-- A publisher that collects records. It never fails. -/
def Publisher.collecting : Publisher (List Record) where
  publish records collected := (.ok (), collected ++ records)

end DurableFlow
